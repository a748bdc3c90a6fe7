import RenderPlan.Proofs.Compilation
import RenderPlan.Proofs.SceneUses
import RenderPlan.Proofs.SelfContainment

/-!
# The resources of a plan

A plan lists what a renderer has to prepare. Each of its lists is filled item by item, and an item
may be listed twice or share its resources with others. Still the lists are those of the scene: what
its items use, nothing else, each once and in ascending order, with the declarations of the
catalogs.

## Main results

* `Plan.buffer_resources`: the attributes, models and index look-ups of a compiled plan
* `Plan.texture_resources`: its textures and targets
-/

namespace RenderPlan

/-- The origin of the buffers that call for a look-up. -/
def IndexLookup.origin : IndexLookup → Buffer.Origin
  | .vertex => .vertexIndex
  | .edge => .edgeIndex

theorem Buffer.Origin.indexLookup?_eq_some_iff {origin : Buffer.Origin} {lookup : IndexLookup} :
    origin.indexLookup? = some lookup ↔ origin = lookup.origin := by
  cases origin <;> cases lookup <;> simp [indexLookup?, IndexLookup.origin]

namespace IndexLookups

theorem contains_insert {l : IndexLookups} {lookup other : IndexLookup} :
    (l.insert lookup).contains other = true ↔ l.contains other = true ∨ lookup = other := by
  cases lookup <;> cases other <;> simp [insert, contains]

theorem lists_toList {l : IndexLookups} {P : IndexLookup → Prop}
    (h : ∀ lookup, l.contains lookup = true ↔ P lookup) : Lists l.toList P where
  ascending := by
    refine List.Pairwise.filter _ ?_
    simp [IndexLookup.lt_iff, IndexLookup.number]
  mem_iff lookup := by
    rw [toList, List.mem_filter, h]
    cases lookup <;> simp

end IndexLookups

theorem NameTable.mem_keys_update {α : Type} {t : NameTable α} {name other : String}
    {f : Option α → α} : other ∈ (t.update name f).keys ↔ other ∈ t.keys ∨ name = other := by
  rw [mem_keys_iff, mem_keys_iff, get?_update]
  by_cases h : other = name
  · simp [h]
  · simp [h, Ne.symm h]

namespace Plan

variable {s : Scene} {c : Catalogs} {index : TriggerIndex} {rs : List ResolvedItem} {p : Plan}

/-- What adding an item can only bring about holds of a plan if one of its items brings it about. -/
theorem ofItems_iff {P : Plan → Prop} {Q : ResolvedItem → Prop} (hblank : ¬P (blank s index))
    (hstep : ∀ p r, P (add index p r) ↔ P p ∨ Q r) :
    P (ofItems s index rs) ↔ ∃ r ∈ rs, Q r :=
  (foldl_iff hstep).trans (or_iff_right hblank)

/-- The scene draws the item of every draw of its plan. -/
theorem draws_of_mem_draws (h : s.compile c index = .ok p) {d : Draw} (hd : d ∈ p.draws) :
    s.Draws c d.item := by
  obtain ⟨rs, hrender, hrs, rfl⟩ := Scene.compile_eq_ok_iff.mp h
  rw [draws_ofItems] at hd
  obtain ⟨r, hr, rfl⟩ := List.mem_map.mp hd
  exact Scene.draws_item hrender hrs hr

/-! ## Programs and uniforms -/

section Programs

variable (h : s.compile c index = .ok p)
include h

/-- **The programs** of a compiled plan are those that the items of the scene draw with. -/
theorem program_of_compile {name : String} {program : Program} :
    p.programs.get? name = some program ↔
      (∃ item, s.Draws c item ∧ item.program = name) ∧ c.programs.get? name = some program := by
  obtain ⟨rs, hrender, hrs, rfl⟩ := Scene.compile_eq_ok_iff.mp h
  rw [programs_ofItems hrs, Scene.exists_item_iff (P := fun item => item.program = name ∧
    c.programs.get? name = some program) hrender hrs fun r hr => ?_]
  · simp only [← and_assoc, exists_and_right]
  · -- the program of an item is what the catalogs declare under the name that the item gives
    rw [ResolvedItem.programUse, Prod.mk.injEq]
    refine and_congr_right fun hname => ?_
    rw [← hname, hr.program, Option.some_inj]

/-- **The uniforms** of a compiled plan are those that the items of the render list declare. -/
theorem uniforms_of_compile {name : String} {uniforms : UniformTable} :
    p.uniforms.get? name = some uniforms ↔
      name ∈ s.render ∧ ∃ item, c.items.get? name = some item ∧ item.uniforms = uniforms := by
  obtain ⟨rs, hrender, hrs, rfl⟩ := Scene.compile_eq_ok_iff.mp h
  -- an item that is drawn more than once declares the same uniforms each time
  let declared (name : String) : Option UniformTable := (c.items.get? name).map Item.uniforms
  have hdeclared : ∀ entry ∈ rs.map fun r => (r.name, r.item.uniforms),
      declared entry.1 = some entry.2 := by
    rw [List.forall_mem_map]
    intro r hr
    show (c.items.get? r.name).map Item.uniforms = some r.item.uniforms
    rw [(hrs r hr).item, Option.map_some]
  rw [uniforms_ofItems, NameTable.get?_ofList_eq_some_iff hdeclared, List.mem_map, ← hrender]
  constructor
  · rintro ⟨r, hr, huse⟩
    cases huse
    exact ⟨List.mem_map_of_mem hr, r.item, (hrs r hr).item, rfl⟩
  · rintro ⟨hname, item, hitem, rfl⟩
    obtain ⟨r, hr, rfl⟩ := List.mem_map.mp hname
    obtain rfl : r.item = item := Option.some.inj ((hrs r hr).item.symm.trans hitem)
    exact ⟨r, hr, rfl⟩

end Programs

/-! ## Buffers -/

theorem mem_requiredModels_ofItems {model : String} :
    model ∈ (ofItems s index rs).requiredModels ↔
      ∃ r ∈ rs, ∃ use ∈ r.buffers, use.1.model = model := by
  refine ofItems_iff (P := fun p => model ∈ p.requiredModels) (NameSet.not_mem_empty model)
    fun p r => ?_
  rw [requiredModels_add]
  refine foldl_iff (P := fun models : NameSet => model ∈ models) fun models use => ?_
  rw [NameSet.mem_insert, or_comm, eq_comm]

theorem mem_keys_models_ofItems {model : String} :
    model ∈ (ofItems s index rs).models.keys ↔
      ∃ r ∈ rs, ∃ use ∈ r.buffers, use.1.model = model := by
  refine ofItems_iff (P := fun p => model ∈ p.models.keys) (by simp [blank]) fun p r => ?_
  rw [models_add]
  refine foldl_iff (P := fun models : NameTable Model => model ∈ models.keys) fun models use => ?_
  exact NameTable.mem_keys_update

theorem contains_indexLookups_ofItems {lookup : IndexLookup} :
    (ofItems s index rs).indexLookups.contains lookup = true ↔
      ∃ r ∈ rs, ∃ use ∈ r.buffers, use.2.origin = lookup.origin := by
  refine ofItems_iff (P := fun p => p.indexLookups.contains lookup = true)
    (by cases lookup <;> exact Bool.false_ne_true) fun p r => ?_
  rw [indexLookups_add]
  refine foldl_iff (P := fun lookups : IndexLookups => lookups.contains lookup = true)
    fun lookups use => ?_
  rw [← Buffer.Origin.indexLookup?_eq_some_iff]
  cases use.2.origin.indexLookup? with
  | none => simp
  | some other => simp [IndexLookups.contains_insert]

section Buffers

variable (h : s.compile c index = .ok p)
include h

/-- **The attributes** of a compiled plan are those that the scene refers to. -/
theorem attributeOf?_of_compile {ref : AttributeRef} {buffer : Buffer} :
    attributeOf? p.models ref = some buffer ↔ s.RefersTo c ref ∧ c.buffer? ref = some buffer := by
  obtain ⟨rs, hrender, hrs, rfl⟩ := Scene.compile_eq_ok_iff.mp h
  rw [models_ofItems hrs, Scene.exists_mem_buffers_iff hrender hrs]

theorem exists_buffer_of_compile {ref : AttributeRef} (href : s.RefersTo c ref) :
    ∃ buffer, c.buffer? ref = some buffer := by
  obtain ⟨rs, hrender, hrs, rfl⟩ := Scene.compile_eq_ok_iff.mp h
  exact Scene.exists_buffer_of_refersTo hrender hrs href

/-- **Required** are the models with an attribute that the scene refers to. -/
theorem mem_requiredModels_of_compile {model : String} :
    model ∈ p.requiredModels ↔ ∃ ref, s.RefersTo c ref ∧ ref.model = model := by
  obtain ⟨rs, hrender, hrs, rfl⟩ := Scene.compile_eq_ok_iff.mp h
  rw [mem_requiredModels_ofItems,
    Scene.exists_use_iff (P := fun ref _ => ref.model = model)
      (Scene.exists_mem_buffers_iff hrender hrs)]
  constructor
  · rintro ⟨ref, -, ⟨href, -⟩, hmodel⟩
    exact ⟨ref, href, hmodel⟩
  · rintro ⟨ref, href, hmodel⟩
    obtain ⟨buffer, hbuffer⟩ := exists_buffer_of_compile h href
    exact ⟨ref, buffer, ⟨href, hbuffer⟩, hmodel⟩

/-- The plan has a model for every required one, and for no other. -/
theorem keys_models_of_compile : p.models.keys = p.requiredModels.toList := by
  obtain ⟨rs, -, -, rfl⟩ := Scene.compile_eq_ok_iff.mp h
  have hmodels : Lists (ofItems s index rs).models.keys (· ∈ (ofItems s index rs).requiredModels) :=
    ⟨NameTable.pairwise_keys _, fun _ =>
      mem_keys_models_ofItems.trans mem_requiredModels_ofItems.symm⟩
  exact hmodels.unique (NameSet.lists fun _ => Iff.rfl)

/-- **To fetch** are the models with an attribute from the server that the scene refers to. -/
theorem mem_serverBuffers_of_compile {model : String} :
    model ∈ p.serverBuffers ↔ ∃ ref buffer, s.RefersTo c ref ∧ c.buffer? ref = some buffer ∧
      ref.model = model ∧ (buffer.origin = .serverHost ∨ buffer.origin = .serverDevice) := by
  obtain ⟨rs, hrender, hrs, rfl⟩ := Scene.compile_eq_ok_iff.mp h
  rw [mem_serverBuffers_ofItems,
    Scene.exists_use_iff (P := fun ref buffer => buffer.origin.isServer = true ∧ ref.model = model)
      (Scene.exists_mem_buffers_iff hrender hrs)]
  simp only [Buffer.Origin.isServer_iff, and_assoc, and_comm (b := AttributeRef.model _ = _)]

/-- **To prepare** are the look-ups for the index buffers that the scene refers to. -/
theorem contains_indexLookups_of_compile {lookup : IndexLookup} :
    p.indexLookups.contains lookup = true ↔ ∃ ref buffer, s.RefersTo c ref ∧
      c.buffer? ref = some buffer ∧ buffer.origin = lookup.origin := by
  obtain ⟨rs, hrender, hrs, rfl⟩ := Scene.compile_eq_ok_iff.mp h
  rw [contains_indexLookups_ofItems,
    Scene.exists_use_iff (P := fun _ buffer => buffer.origin = lookup.origin)
      (Scene.exists_mem_buffers_iff hrender hrs)]
  simp only [and_assoc]

/-- **The buffer resources of a plan are complete and minimal.** Its models have exactly the
attributes that the items of the render list refer to, as the catalogs declare them. The required
models are those of these attributes, and so are the models of the plan. The models to fetch are
those with such an attribute from the server, and the index look-ups to prepare are those of the
index buffers among them. Every list is in strictly ascending order. -/
theorem buffer_resources :
    (∀ ref, (∃ buffer, attributeOf? p.models ref = some buffer) ↔ s.RefersTo c ref) ∧
    (∀ ref, s.RefersTo c ref → attributeOf? p.models ref = c.buffer? ref) ∧
    (Lists p.requiredModels.toList (fun model => ∃ ref, s.RefersTo c ref ∧ ref.model = model) ∧
      p.models.keys = p.requiredModels.toList) ∧
    Lists p.serverBuffers.toList (fun model => ∃ ref buffer, s.RefersTo c ref ∧
      c.buffer? ref = some buffer ∧ ref.model = model ∧
        (buffer.origin = .serverHost ∨ buffer.origin = .serverDevice)) ∧
    Lists p.indexLookups.toList (fun lookup => ∃ ref buffer, s.RefersTo c ref ∧
      c.buffer? ref = some buffer ∧ buffer.origin = lookup.origin) := by
  have hattributes (ref : AttributeRef) (href : s.RefersTo c ref) :
      ∃ buffer, c.buffer? ref = some buffer ∧ attributeOf? p.models ref = some buffer := by
    obtain ⟨buffer, hbuffer⟩ := exists_buffer_of_compile h href
    exact ⟨buffer, hbuffer, (attributeOf?_of_compile h).mpr ⟨href, hbuffer⟩⟩
  refine ⟨fun ref => ⟨?_, fun href => ?_⟩, fun ref href => ?_,
    ⟨NameSet.lists fun _ => mem_requiredModels_of_compile h, keys_models_of_compile h⟩,
    NameSet.lists fun _ => mem_serverBuffers_of_compile h,
    IndexLookups.lists_toList fun _ => contains_indexLookups_of_compile h⟩
  · rintro ⟨buffer, hbuffer⟩
    exact ((attributeOf?_of_compile h).mp hbuffer).1
  · obtain ⟨buffer, -, hbuffer⟩ := hattributes ref href
    exact ⟨buffer, hbuffer⟩
  · obtain ⟨buffer, hdeclared, hbuffer⟩ := hattributes ref href
    rw [hdeclared, hbuffer]

omit h in
/-- The scene of two items that share a model requires and fetches it once. The attribute that no
item refers to is not held, though the model has it. -/
theorem buffer_resources_pick :
    pickScene.compile pickCatalogs (.build pickCatalogs.items) = .ok pickPlan ∧
      Lists ["points"] (fun model =>
        ∃ ref, pickScene.RefersTo pickCatalogs ref ∧ ref.model = model) ∧
      pickPlan.serverBuffers.toList = ["points"] ∧
      Lists [IndexLookup.vertex] (fun lookup => ∃ ref buffer, pickScene.RefersTo pickCatalogs ref ∧
        pickCatalogs.buffer? ref = some buffer ∧ buffer.origin = lookup.origin) ∧
      ¬pickScene.RefersTo pickCatalogs ⟨"points", "size"⟩ := by
  have hcompile : pickScene.compile pickCatalogs (.build pickCatalogs.items) = .ok pickPlan := rfl
  obtain ⟨hattributes, -, ⟨hrequired, -⟩, -, hlookups⟩ := buffer_resources hcompile
  refine ⟨hcompile, hrequired, by decide, hlookups, fun href => ?_⟩
  obtain ⟨buffer, hbuffer⟩ := (hattributes ⟨"points", "size"⟩).mpr href
  cases hbuffer

end Buffers

/-! ## Textures and targets -/

/-- The targets of a plan hold the textures that its items draw into. -/
theorem map_targets_ofItems (hrs : ∀ r ∈ rs, r.FoundIn c) {name : String} {texture : Texture} :
    ((ofItems s index rs).targets.map Target.texture).get? name = some texture ↔
      ∃ r ∈ rs, (name, texture) ∈ r.target.toList := by
  have hstep (p : Plan) (r : ResolvedItem) : (add index p r).targets.map Target.texture =
      r.target.toList.foldl noteUse (p.targets.map Target.texture) := by
    rw [targets_add]
    cases r.target with
    | none => rfl
    | some use =>
      -- whether the target is new or not, the texture that it holds is the first one noted
      refine NameTable.ext_get? fun other => ?_
      rw [Option.toList_some, List.foldl_cons, List.foldl_nil, List.foldl_cons, List.foldl_nil,
        NameTable.get?_map, NameTable.get?_update, get?_noteUse, NameTable.get?_map]
      by_cases hname : other = use.1
      · subst hname
        cases p.targets.get? use.1 <;> simp
      · simp [hname]
  exact get_part_ofItems_iff (fun p => p.targets.map Target.texture) get?_noteUse (fun _ => rfl)
    hstep c.textures.get? fun r hr use huse => (hrs r hr).target use (Option.mem_toList.mp huse)

/-- A target of a plan is read back when one of the items that draw into it asks for it. -/
theorem readBack_ofItems_iff {name : String} :
    (∃ target, (ofItems s index rs).targets.get? name = some target ∧ target.readBack = true) ↔
      ∃ r ∈ rs, name ∈ r.target.toList.map Prod.fst ∧ r.item.readsTarget = true := by
  refine ofItems_iff
    (P := fun p => ∃ target, p.targets.get? name = some target ∧ target.readBack = true)
    (by simp [blank]) fun p r => ?_
  rw [targets_add]
  cases r.target with
  | none => simp
  | some use =>
    rw [Option.toList_some, List.foldl_cons, List.foldl_nil, List.map_singleton,
      List.mem_singleton, NameTable.get?_update]
    by_cases hname : name = use.1
    · subst hname
      cases p.targets.get? use.1 <;> simp
    · simp [hname]

section Textures

variable (h : s.compile c index = .ok p)
include h

/-- **The textures** of a compiled plan are those that the scene uses. -/
theorem texture_of_compile {name : String} {texture : Texture} :
    p.textures.get? name = some texture ↔
      s.UsesTexture c name ∧ c.textures.get? name = some texture := by
  obtain ⟨rs, hrender, hrs, rfl⟩ := Scene.compile_eq_ok_iff.mp h
  rw [textures_ofItems hrs, Scene.exists_mem_textureUses_iff hrender hrs]

theorem exists_texture_of_compile {name : String} (hname : s.UsesTexture c name) :
    ∃ texture, c.textures.get? name = some texture := by
  obtain ⟨rs, hrender, hrs, rfl⟩ := Scene.compile_eq_ok_iff.mp h
  exact Scene.exists_texture_of_usesTexture hrender hrs hname

/-- **To fetch** are the textures from the server that the scene uses. -/
theorem mem_serverTextures_of_compile {name : String} :
    name ∈ p.serverTextures ↔ s.UsesTexture c name ∧
      ∃ texture, c.textures.get? name = some texture ∧ texture.origin = .server := by
  obtain ⟨rs, hrender, hrs, rfl⟩ := Scene.compile_eq_ok_iff.mp h
  rw [mem_serverTextures_ofItems,
    Scene.exists_use_iff (P := fun key texture => texture.isServer = true ∧ key = name)
      (Scene.exists_mem_textureUses_iff hrender hrs)]
  simp only [Texture.isServer_iff]
  constructor
  · rintro ⟨_, texture, ⟨huses, htexture⟩, hserver, rfl⟩
    exact ⟨huses, texture, htexture, hserver⟩
  · rintro ⟨huses, texture, htexture, hserver⟩
    exact ⟨name, texture, ⟨huses, htexture⟩, hserver, rfl⟩

/-- **The targets** of a compiled plan are the textures that the scene draws into, to be read back
when one of the items that draw into them asks for it. -/
theorem target_of_compile {name : String} {target : Target} :
    p.targets.get? name = some target ↔ s.DrawsInto c name ∧
      c.textures.get? name = some target.texture ∧
        (target.readBack = true ↔ s.ReadsBack c name) := by
  obtain ⟨rs, hrender, hrs, rfl⟩ := Scene.compile_eq_ok_iff.mp h
  have htexture (texture : Texture) :
      ((ofItems s index rs).targets.get? name).map Target.texture = some texture ↔
        s.DrawsInto c name ∧ c.textures.get? name = some texture := by
    rw [← NameTable.get?_map, map_targets_ofItems hrs, Scene.exists_mem_target_iff hrender hrs]
  have hreadBack : (∃ target, (ofItems s index rs).targets.get? name = some target ∧
      target.readBack = true) ↔ s.ReadsBack c name := by
    rw [readBack_ofItems_iff]
    exact Scene.exists_item_iff
      (P := fun item => item.DrawsInto name ∧ item.readsTarget = true) hrender hrs
      fun r hr => and_congr_left fun _ => hr.mem_map_target_iff
  rw [← and_assoc, ← htexture, ← hreadBack]
  cases htarget : (ofItems s index rs).targets.get? name with
  | none => simp
  | some held =>
    obtain ⟨heldTexture, heldReadBack⟩ := held
    obtain ⟨texture, readBack⟩ := target
    simp only [Option.map_some, Option.some.injEq, exists_eq_left', Target.mk.injEq]
    exact and_congr_right fun _ => ⟨fun h => h ▸ Iff.rfl, fun h => (Bool.eq_iff_iff.mpr h).symm⟩

theorem lists_keys_targets : Lists p.targets.keys (s.DrawsInto c) := by
  refine NameTable.lists_keys fun name => ⟨?_, fun hname => ?_⟩
  · rintro ⟨target, htarget⟩
    exact ((target_of_compile h).mp htarget).1
  · obtain ⟨item, hitem, hinto⟩ := hname
    obtain ⟨texture, htexture⟩ := exists_texture_of_compile h ⟨item, hitem, .inr hinto⟩
    classical
    exact ⟨⟨texture, decide (s.ReadsBack c name)⟩,
      (target_of_compile h).mpr ⟨⟨item, hitem, hinto⟩, htexture, decide_eq_true_iff⟩⟩

/-- What an item has read back is a target that is to be read back. -/
theorem exists_target_of_readsBack {name : String} (hname : s.ReadsBack c name) :
    ∃ target, p.targets.get? name = some target ∧ target.readBack = true := by
  have hinto : s.DrawsInto c name := hname.imp fun _ hitem => ⟨hitem.1, hitem.2.1⟩
  obtain ⟨target, htarget⟩ :=
    NameTable.mem_keys_iff.mp (((lists_keys_targets h).mem_iff name).mpr hinto)
  exact ⟨target, htarget, ((target_of_compile h).mp htarget).2.2.mpr hname⟩

theorem lists_readBackTargets : Lists (p.readBackTargets.map Prod.fst) (s.ReadsBack c) := by
  -- the targets to read back are the entries of a part of the table
  show Lists (p.targets.filter fun _ target => target.readBack).keys (s.ReadsBack c)
  refine NameTable.lists_keys fun name => ?_
  simp only [NameTable.get?_filter, Option.filter_eq_some_iff]
  refine ⟨?_, exists_target_of_readsBack h⟩
  rintro ⟨target, htarget, hreadBack⟩
  exact ((target_of_compile h).mp htarget).2.2.mp hreadBack

/-- **Items without an off-canvas target** contribute no target, whatever they have read back: the
scene without them has a plan with the same targets. -/
theorem targets_of_compile_filter {keep : String → Bool}
    (hkeep : ∀ name ∈ s.render, keep name = false → ∀ item, c.items.get? name = some item →
      item.target = none ∨ item.target = some .canvas) :
    ∃ p', { s with render := s.render.filter keep }.compile c index = .ok p' ∧
      p'.targets = p.targets := by
  let s' : Scene := { s with render := s.render.filter keep }
  have hresolves : ∀ name ∈ s.render, c.Resolves name :=
    Scene.exists_compile_eq_ok_iff.mp ⟨p, h⟩
  obtain ⟨p', hp'⟩ : ∃ p', s'.compile c index = .ok p' :=
    Scene.exists_compile_eq_ok_iff.mpr fun name hname =>
      hresolves name (List.mem_filter.mp hname).1
  -- an item that draws into a texture is not among those left out
  have hdraws (name : String) (item : Item) (hinto : item.DrawsInto name) :
      s'.Draws c item ↔ s.Draws c item := by
    refine exists_congr fun listed => and_congr_left fun hitem => ?_
    refine List.mem_filter.trans (and_iff_left_of_imp fun hlisted => ?_)
    rw [← Bool.not_eq_false]
    intro hleft
    rcases hkeep listed hlisted hleft item hitem with htarget | htarget
    · cases htarget.symm.trans hinto
    · cases htarget.symm.trans hinto
  have hinto (name : String) : s'.DrawsInto c name ↔ s.DrawsInto c name :=
    exists_congr fun item => and_congr_left (hdraws name item)
  have hreads (name : String) : s'.ReadsBack c name ↔ s.ReadsBack c name :=
    exists_congr fun item => and_congr_left fun hitem => hdraws name item hitem.1
  refine ⟨p', hp', NameTable.ext_get? fun name => Option.ext fun target => ?_⟩
  rw [target_of_compile hp', target_of_compile h, hinto, hreads]

/-- **The texture resources of a plan are complete and minimal.** Its textures are exactly those
that the items of the render list sample, through samplers that their programs declare, or draw
into, as the catalogs declare them; those to fetch come from the server. There is one target for
each texture that an item draws into, with the texture of that name, and it is read back exactly if
one of the items that draw into it asks for that. Items that draw into the canvas, or say nothing of
where they draw, contribute no target. Every list is in strictly ascending order. -/
theorem texture_resources :
    ((∀ name, (∃ texture, p.textures.get? name = some texture) ↔ s.UsesTexture c name) ∧
      ∀ name, s.UsesTexture c name → p.textures.get? name = c.textures.get? name) ∧
    Lists p.serverTextures.toList (fun name => s.UsesTexture c name ∧
      ∃ texture, c.textures.get? name = some texture ∧ texture.origin = .server) ∧
    Lists p.targets.keys (s.DrawsInto c) ∧
    (∀ name target, p.targets.get? name = some target →
      p.textures.get? name = some target.texture ∧
        (target.readBack = true ↔ s.ReadsBack c name)) ∧
    (Lists (p.readBackTargets.map Prod.fst) (s.ReadsBack c) ∧
      p.readBackTargets.Sublist p.targets.entries) ∧
    ∀ keep, (∀ name ∈ s.render, keep name = false → ∀ item, c.items.get? name = some item →
        item.target = none ∨ item.target = some .canvas) →
      ∃ p', { s with render := s.render.filter keep }.compile c index = .ok p' ∧
        p'.targets = p.targets := by
  have htextures (name : String) (hname : s.UsesTexture c name) :
      ∃ texture, c.textures.get? name = some texture ∧ p.textures.get? name = some texture := by
    obtain ⟨texture, htexture⟩ := exists_texture_of_compile h hname
    exact ⟨texture, htexture, (texture_of_compile h).mpr ⟨hname, htexture⟩⟩
  refine ⟨⟨fun name => ⟨?_, fun hname => ?_⟩, fun name hname => ?_⟩,
    NameSet.lists fun _ => mem_serverTextures_of_compile h, lists_keys_targets h, ?_,
    ⟨lists_readBackTargets h, List.filter_sublist⟩, fun keep => targets_of_compile_filter h⟩
  · rintro ⟨texture, htexture⟩
    exact ((texture_of_compile h).mp htexture).1
  · obtain ⟨texture, -, htexture⟩ := htextures name hname
    exact ⟨texture, htexture⟩
  · obtain ⟨texture, hdeclared, htexture⟩ := htextures name hname
    rw [hdeclared, htexture]
  · intro name target htarget
    -- a target is a texture in use
    obtain ⟨⟨item, hitem, hinto⟩, htexture, hreadBack⟩ := (target_of_compile h).mp htarget
    exact ⟨(texture_of_compile h).mpr ⟨⟨item, hitem, .inr hinto⟩, htexture⟩, hreadBack⟩

omit h in
/-- The scene of two items has one target, which is read back, and fetches the texture that is bound
to a declared sampler. The one bound to an undeclared sampler is not used. Without the item that
says nothing of where it draws, the targets stay the same. -/
theorem texture_resources_pick :
    pickScene.compile pickCatalogs (.build pickCatalogs.items) = .ok pickPlan ∧
      Lists ["hitmap"] (pickScene.DrawsInto pickCatalogs) ∧
      Lists ["hitmap"] (pickScene.ReadsBack pickCatalogs) ∧
      pickPlan.serverTextures.toList = ["glyphs"] ∧
      ¬pickScene.UsesTexture pickCatalogs "shadows" ∧
      ∃ p', { pickScene with render := ["hits", "hits"] }.compile pickCatalogs
        (.build pickCatalogs.items) = .ok p' ∧ p'.targets = pickPlan.targets := by
  have hcompile : pickScene.compile pickCatalogs (.build pickCatalogs.items) = .ok pickPlan := rfl
  obtain ⟨⟨htextures, -⟩, -, htargets, -, ⟨hreadBack, -⟩, hfilter⟩ := texture_resources hcompile
  refine ⟨hcompile, htargets, hreadBack, by decide, fun hname => ?_,
    hfilter (· != "dots") fun name _ hname item hitem => .inl ?_⟩
  · obtain ⟨texture, htexture⟩ := (htextures "shadows").mpr hname
    cases htexture
  · obtain rfl : name = "dots" := by simpa using hname
    cases hitem
    rfl

end Textures

end Plan

end RenderPlan
