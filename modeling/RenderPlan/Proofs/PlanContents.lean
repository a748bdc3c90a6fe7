import Mathlib.Data.List.Induction
import RenderPlan.Plan.Compile
import RenderPlan.Proofs.Resolution

/-!
# What a plan holds

A plan is made by adding resolved items one after the other. Each part of it takes from an item
only the uses that concern it, so a part is a fold over those uses alone, and since all uses are
found in the same catalogs the order of the fold does not show in what it holds.

## Main definitions

* `ResolvedItem.textureUses`: the textures that an item samples or draws into
* `Plan.ofItems`: the plan of a scene with the given items added

## Main results

* `Scene.compile_eq_ok_iff`: a compiled plan is the plan of the items that the render list names
* `Plan.draws_ofItems`: its draws are the items in order
* `Plan.programs_ofItems`, `Plan.textures_ofItems`, `Plan.models_ofItems`: it holds the programs,
  textures and attributes that its items use, and nothing else
* `Plan.uniforms_ofItems`: it holds the uniforms that its items declare
* `Plan.mem_serverBuffers_ofItems`, `Plan.mem_serverTextures_ofItems`: it asks for those of them
  that come from the server
-/

namespace RenderPlan

/-! ## Folds over uses -/

section Uses

variable {σ κ α : Type}

/-- **The first write counts**, and it does not matter which that is when all writes agree: a store
filled with uses that all agree with one look-up holds exactly what it held and the uses. -/
theorem get_foldl_iff [DecidableEq κ] {get : σ → κ → Option α} {note : σ → κ × α → σ}
    (hnote : ∀ s use key, get (note s use) key =
      if key = use.1 then some ((get s key).getD use.2) else get s key)
    (lookup : κ → Option α) {key : κ} {value : α} :
    ∀ {uses : List (κ × α)} {s : σ},
      (∀ key value, get s key = some value → lookup key = some value) →
      (∀ use ∈ uses, lookup use.1 = some use.2) →
      (get (uses.foldl note s) key = some value ↔ get s key = some value ∨ (key, value) ∈ uses)
  | [], s, _, _ => by simp
  | use :: uses, s, hs, huses => by
    obtain ⟨huse, huses⟩ := List.forall_mem_cons.mp huses
    have hstep (key : κ) (value : α) :
        get (note s use) key = some value ↔ get s key = some value ∨ (key, value) = use := by
      rw [hnote]
      by_cases hkey : key = use.1
      · subst hkey
        rw [if_pos rfl, Option.some_inj]
        cases hget : get s use.1 with
        | none =>
          -- nothing was there, so the use is written
          refine ⟨fun h => .inr (Prod.ext rfl h.symm), ?_⟩
          rintro (h | h)
          · cases h
          · exact (congrArg Prod.snd h).symm
        | some old =>
          -- what is there already is what the use would write
          have hold : old = use.2 := Option.some.inj ((hs _ _ hget).symm.trans huse)
          refine ⟨fun h => .inl (congrArg some h), ?_⟩
          rintro (h | h)
          · exact Option.some.inj h
          · exact hold.trans (congrArg Prod.snd h).symm
      · simp [hkey, Prod.ext_iff]
    rw [List.foldl_cons, get_foldl_iff hnote lookup _ huses, hstep, List.mem_cons, or_assoc]
    -- with the use noted, the store still agrees with the look-up
    intro key value hget
    rcases (hstep key value).mp hget with hget | rfl
    · exact hs _ _ hget
    · exact huse

/-- What each step of a fold can only add to holds in the end if it held at first or if one of the
steps added it. -/
theorem foldl_iff {P : σ → Prop} {Q : α → Prop} {step : σ → α → σ}
    (hstep : ∀ s a, P (step s a) ↔ P s ∨ Q a) :
    ∀ {as : List α} {s : σ}, P (as.foldl step s) ↔ P s ∨ ∃ a ∈ as, Q a
  | [], s => by simp
  | a :: as, s => by
    rw [List.foldl_cons, foldl_iff hstep, hstep, List.exists_mem_cons_iff, or_assoc]

theorem NameSet.mem_foldl_insertIf {key : α → String} {keep : α → Bool} {name : String}
    {uses : List α} {s : NameSet} :
    name ∈ uses.foldl (fun s use => if keep use then s.insert (key use) else s) s ↔
      name ∈ s ∨ ∃ use ∈ uses, keep use = true ∧ key use = name := by
  refine foldl_iff (P := fun s : NameSet => name ∈ s) fun s use => ?_
  cases keep use with
  | false => simp
  | true =>
    simp only [if_true, mem_insert, true_and]
    rw [or_comm, @eq_comm _ name]

/-- The attribute that a table of models has for a reference. -/
def attributeOf? (models : NameTable Model) (ref : AttributeRef) : Option Buffer :=
  (models.get? ref.model).bind fun model => model.get? ref.name

/-- The models with one more attribute noted, unless they have it. -/
def noteAttribute (models : NameTable Model) (use : AttributeRef × Buffer) : NameTable Model :=
  models.update use.1.model fun model => (model.getD .empty).insertNew use.1.name use.2

theorem attributeOf?_noteAttribute (models : NameTable Model) (use : AttributeRef × Buffer)
    (ref : AttributeRef) :
    attributeOf? (noteAttribute models use) ref =
      if ref = use.1 then some ((attributeOf? models ref).getD use.2)
      else attributeOf? models ref := by
  obtain ⟨⟨model, name⟩, buffer⟩ := use
  obtain ⟨model', name'⟩ := ref
  -- another model is not touched, and within the model another attribute is not
  rw [attributeOf?, attributeOf?, noteAttribute, NameTable.get?_update]
  by_cases hmodel : model' = model
  · subst hmodel
    cases models.get? model' <;> by_cases hname : name' = name <;> simp [hname]
  · simp [hmodel]

/-- A table with a use noted, unless it has a value under the name. -/
def noteUse (t : NameTable α) (use : String × α) : NameTable α := t.insertNew use.1 use.2

theorem get?_noteUse (t : NameTable α) (use : String × α) (name : String) :
    (noteUse t use).get? name =
      if name = use.1 then some ((t.get? name).getD use.2) else t.get? name := by
  rw [noteUse, NameTable.get?_insertNew]
  split
  · next hname => rw [hname]
  · rfl

end Uses

namespace ResolvedItem

/-- The textures that an item samples or draws into. -/
def textureUses (r : ResolvedItem) : List (String × Texture) := r.samples ++ r.target.toList

/-- The program that an item draws with. -/
def programUse (r : ResolvedItem) : String × Program := (r.item.program, r.program)

theorem FoundIn.textureUses {r : ResolvedItem} {c : Catalogs} (h : r.FoundIn c) :
    ∀ use ∈ r.textureUses, c.textures.get? use.1 = some use.2 := by
  intro use huse
  rcases List.mem_append.mp huse with huse | huse
  · exact h.samples use huse
  · exact h.target use (Option.mem_toList.mp huse)

end ResolvedItem

namespace Plan

/-! ## One item added -/

theorem foldl_addTexture (p : Plan) (uses : List (String × Texture)) :
    uses.foldl (fun p use => p.addTexture use.1 use.2) p =
      { p with
        textures := uses.foldl noteUse p.textures
        serverTextures := uses.foldl
          (fun s use => if use.2.isServer then s.insert use.1 else s) p.serverTextures } := by
  induction uses generalizing p with
  | nil => rfl
  | cons use uses ih =>
    rw [List.foldl_cons, ih]
    rfl

theorem foldl_addBuffer (p : Plan) (uses : List (AttributeRef × Buffer)) :
    uses.foldl (fun p use => p.addBuffer use.1 use.2) p =
      { p with
        indexLookups := uses.foldl
          (fun l use => match use.2.origin.indexLookup? with
            | some lookup => l.insert lookup
            | none => l) p.indexLookups
        serverBuffers := uses.foldl
          (fun s use => if use.2.origin.isServer then s.insert use.1.model else s) p.serverBuffers
        requiredModels := uses.foldl (fun s use => s.insert use.1.model) p.requiredModels
        models := uses.foldl noteAttribute p.models } := by
  induction uses generalizing p with
  | nil => rfl
  | cons use uses ih =>
    rw [List.foldl_cons, ih]
    rfl

variable (index : TriggerIndex) (p : Plan) (r : ResolvedItem)

-- A target is one more texture and nothing to any other part, so only the case of a target
-- present needs a look; with the two folds rewritten both cases are definitional.
@[simp] theorem glState_add : (p.add index r).glState = p.glState := by
  simp only [add, foldl_addTexture, foldl_addBuffer]
  cases r.target <;> rfl

theorem header_add :
    (p.add index r).scene = p.scene ∧ (p.add index r).camera = p.camera ∧
      (p.add index r).parameters = p.parameters := by
  simp only [add, foldl_addTexture, foldl_addBuffer, addDraw, addToTriggers, addProgram]
  cases r.target <;> simp only [addTarget?, addTarget, addTexture, and_self]

@[simp] theorem draws_add :
    (p.add index r).draws =
      p.draws ++ [⟨r.name, r.item, p.glState.overriddenBy r.item.glState⟩] := by
  simp only [add, foldl_addTexture, foldl_addBuffer]
  cases r.target <;> rfl

theorem programs_add :
    (p.add index r).programs = [r.programUse].foldl noteUse p.programs := by
  simp only [add, foldl_addTexture, foldl_addBuffer]
  cases r.target <;> rfl

theorem textures_add :
    (p.add index r).textures = r.textureUses.foldl noteUse p.textures := by
  simp only [add, foldl_addTexture, foldl_addBuffer, ResolvedItem.textureUses, List.foldl_append]
  cases r.target <;> rfl

theorem serverTextures_add :
    (p.add index r).serverTextures = r.textureUses.foldl
      (fun s use => if use.2.isServer then s.insert use.1 else s) p.serverTextures := by
  simp only [add, foldl_addTexture, foldl_addBuffer, ResolvedItem.textureUses, List.foldl_append]
  cases r.target <;> rfl

theorem models_add : (p.add index r).models = r.buffers.foldl noteAttribute p.models := by
  simp only [add, foldl_addTexture, foldl_addBuffer]
  cases r.target <;> rfl

theorem serverBuffers_add :
    (p.add index r).serverBuffers = r.buffers.foldl
      (fun s use => if use.2.origin.isServer then s.insert use.1.model else s) p.serverBuffers := by
  simp only [add, foldl_addTexture, foldl_addBuffer]
  cases r.target <;> rfl

theorem requiredModels_add :
    (p.add index r).requiredModels =
      r.buffers.foldl (fun s use => s.insert use.1.model) p.requiredModels := by
  simp only [add, foldl_addTexture, foldl_addBuffer]
  cases r.target <;> rfl

theorem indexLookups_add :
    (p.add index r).indexLookups = r.buffers.foldl
      (fun l use => match use.2.origin.indexLookup? with
        | some lookup => l.insert lookup
        | none => l) p.indexLookups := by
  simp only [add, foldl_addTexture, foldl_addBuffer]
  cases r.target <;> rfl

theorem targets_add :
    (p.add index r).targets = r.target.toList.foldl
      (fun targets use => targets.update use.1 fun
        | none => ⟨use.2, r.item.readsTarget⟩
        | some target => { target with readBack := target.readBack || r.item.readsTarget })
      p.targets := by
  simp only [add, foldl_addTexture, foldl_addBuffer]
  cases r.target <;> rfl

theorem uniforms_add :
    (p.add index r).uniforms = [(r.name, r.item.uniforms)].foldl
      (fun uniforms use => uniforms.insert use.1 use.2) p.uniforms := by
  simp only [add, foldl_addTexture, foldl_addBuffer]
  cases r.target <;> rfl

theorem triggers_add :
    (p.add index r).triggers = (index.triggersOf r.name).foldl
      (fun triggers trigger => triggers.update trigger fun items =>
        appendOnce (items.getD []) r.name) p.triggers := by
  simp only [add, foldl_addTexture, foldl_addBuffer]
  cases r.target <;> rfl

/-! ## All items added -/

/-- The plan of a scene with the given items added. -/
def ofItems (s : Scene) (index : TriggerIndex) (rs : List ResolvedItem) : Plan :=
  rs.foldl (add index) (blank s index)

section OfItems

variable {c : Catalogs} {s : Scene} {index : TriggerIndex} {rs : List ResolvedItem}

theorem ofItems_concat (r : ResolvedItem) :
    ofItems s index (rs ++ [r]) = (ofItems s index rs).add index r :=
  List.foldl_concat ..

/-- A part of a plan that takes from each item some uses is the fold over all uses. -/
theorem part_ofItems {σ α : Type} (part : Plan → σ) {uses : ResolvedItem → List α}
    {note : σ → α → σ}
    (hstep : ∀ p r, part (add index p r) = (uses r).foldl note (part p)) :
    part (ofItems s index rs) = (rs.flatMap uses).foldl note (part (blank s index)) := by
  rw [List.foldl_flatMap, ofItems]
  exact (List.foldl_hom part fun p r => (hstep p r).symm).symm

/-- A store of a plan that notes the uses of each item holds these uses and nothing else, if all of
them agree with one look-up. -/
theorem get_part_ofItems_iff {σ κ α : Type} [DecidableEq κ] (part : Plan → σ)
    {uses : ResolvedItem → List (κ × α)} {note : σ → κ × α → σ} {get : σ → κ → Option α}
    (hnote : ∀ s use key, get (note s use) key =
      if key = use.1 then some ((get s key).getD use.2) else get s key)
    (hblank : ∀ key, get (part (blank s index)) key = none)
    (hstep : ∀ p r, part (add index p r) = (uses r).foldl note (part p)) (lookup : κ → Option α)
    (huses : ∀ r ∈ rs, ∀ use ∈ uses r, lookup use.1 = some use.2) {key : κ} {value : α} :
    get (part (ofItems s index rs)) key = some value ↔ ∃ r ∈ rs, (key, value) ∈ uses r := by
  have hagree : ∀ use ∈ rs.flatMap uses, lookup use.1 = some use.2 := by
    intro use huse
    obtain ⟨r, hr, huse⟩ := List.mem_flatMap.mp huse
    exact huses r hr use huse
  -- all uses agree, so it does not matter whose use was noted first
  rw [part_ofItems part hstep, get_foldl_iff hnote lookup (by simp [hblank]) hagree, hblank,
    List.mem_flatMap]
  exact or_iff_right nofun

theorem glState_ofItems : (ofItems s index rs).glState = s.glState := by
  induction rs using List.reverseRecOn with
  | nil => rfl
  | append_singleton rs r ih => rw [ofItems_concat, glState_add, ih]

/-- The name, the camera and the parameters of a plan are those of its scene. -/
theorem header_ofItems :
    (ofItems s index rs).scene = s.name ∧ (ofItems s index rs).camera = s.camera ∧
      (ofItems s index rs).parameters = s.parameters := by
  induction rs using List.reverseRecOn with
  | nil => exact ⟨rfl, rfl, rfl⟩
  | append_singleton rs r ih =>
    obtain ⟨hscene, hcamera, hparameters⟩ := header_add index (ofItems s index rs) r
    rw [ofItems_concat, hscene, hcamera, hparameters]
    exact ih

/-- **The draws are the items in order**, each with its GL state composed over the scene's. -/
theorem draws_ofItems :
    (ofItems s index rs).draws =
      rs.map fun r => ⟨r.name, r.item, s.glState.overriddenBy r.item.glState⟩ := by
  induction rs using List.reverseRecOn with
  | nil => rfl
  | append_singleton rs r ih =>
    rw [ofItems_concat, draws_add, glState_ofItems, ih, List.map_append]
    rfl

/-- **The programs** of a plan are those that its items draw with. -/
theorem programs_ofItems (hrs : ∀ r ∈ rs, r.FoundIn c) {name : String} {program : Program} :
    (ofItems s index rs).programs.get? name = some program ↔
      ∃ r ∈ rs, r.programUse = (name, program) := by
  have hprograms : (ofItems s index rs).programs.get? name = some program ↔
      ∃ r ∈ rs, (name, program) ∈ [r.programUse] :=
    get_part_ofItems_iff Plan.programs get?_noteUse (fun _ => rfl) (programs_add index)
      c.programs.get? fun r hr => List.forall_mem_singleton.mpr (hrs r hr).program
  simpa [eq_comm] using hprograms

/-- **The textures** of a plan are those that its items sample or draw into. -/
theorem textures_ofItems (hrs : ∀ r ∈ rs, r.FoundIn c) {name : String} {texture : Texture} :
    (ofItems s index rs).textures.get? name = some texture ↔
      ∃ r ∈ rs, (name, texture) ∈ r.textureUses :=
  get_part_ofItems_iff Plan.textures get?_noteUse (fun _ => rfl) (textures_add index)
    c.textures.get? fun r hr => (hrs r hr).textureUses

/-- **The attributes** of a plan are those that its items refer to. -/
theorem models_ofItems (hrs : ∀ r ∈ rs, r.FoundIn c) {ref : AttributeRef} {buffer : Buffer} :
    attributeOf? (ofItems s index rs).models ref = some buffer ↔
      ∃ r ∈ rs, (ref, buffer) ∈ r.buffers :=
  get_part_ofItems_iff Plan.models attributeOf?_noteAttribute (fun _ => rfl) (models_add index)
    c.buffer? fun r hr => (hrs r hr).buffers

/-- **The uniforms** of a plan are the tables of its items, under the items' names. -/
theorem uniforms_ofItems :
    (ofItems s index rs).uniforms = .ofList (rs.map fun r => (r.name, r.item.uniforms)) := by
  rw [part_ofItems Plan.uniforms (uniforms_add index), List.map_eq_flatMap]
  rfl

/-- A set of a plan that takes from each item the names of some uses holds no other names. -/
theorem mem_part_ofItems {α : Type} (part : Plan → NameSet) {uses : ResolvedItem → List α}
    {keep : α → Bool} {key : α → String} (hblank : part (blank s index) = .empty)
    (hstep : ∀ p r, part (add index p r) =
      (uses r).foldl (fun s use => if keep use then s.insert (key use) else s) (part p))
    {name : String} :
    name ∈ part (ofItems s index rs) ↔
      ∃ r ∈ rs, ∃ use ∈ uses r, keep use = true ∧ key use = name := by
  rw [part_ofItems part hstep, NameSet.mem_foldl_insertIf, hblank]
  constructor
  · rintro (h | ⟨use, huse, h⟩)
    · exact absurd h (NameSet.not_mem_empty name)
    · obtain ⟨r, hr, huse⟩ := List.mem_flatMap.mp huse
      exact ⟨r, hr, use, huse, h⟩
  · rintro ⟨r, hr, use, huse, h⟩
    exact .inr ⟨use, List.mem_flatMap.mpr ⟨r, hr, huse⟩, h⟩

/-- **The textures to fetch** are those of its items that come from the server. -/
theorem mem_serverTextures_ofItems {name : String} :
    name ∈ (ofItems s index rs).serverTextures ↔
      ∃ r ∈ rs, ∃ use ∈ r.textureUses, use.2.isServer = true ∧ use.1 = name :=
  mem_part_ofItems Plan.serverTextures rfl (serverTextures_add index)

/-- **The models to fetch** are those with an attribute of its items that comes from the server. -/
theorem mem_serverBuffers_ofItems {name : String} :
    name ∈ (ofItems s index rs).serverBuffers ↔
      ∃ r ∈ rs, ∃ use ∈ r.buffers, use.2.origin.isServer = true ∧ use.1.model = name :=
  mem_part_ofItems Plan.serverBuffers rfl (serverBuffers_add index)

end OfItems

end Plan

/-! ## Compiled plans -/

/-- **A compiled plan** is the plan of the items that the render list names. -/
theorem Scene.compile_eq_ok_iff {s : Scene} {c : Catalogs} {index : TriggerIndex} {p : Plan} :
    s.compile c index = .ok p ↔
      ∃ rs, rs.map ResolvedItem.name = s.render ∧ (∀ r ∈ rs, r.FoundIn c) ∧
        Plan.ofItems s index rs = p := by
  have hstep (name : String) (r : ResolvedItem) :
      (c.resolve name).mapError (fun missing => CompileError.mk s.name name missing) = .ok r ↔
        r.name = name ∧ r.FoundIn c :=
    mapError_eq_ok_iff.trans Catalogs.resolve_eq_ok_iff
  simp only [compile, resolve, map_eq_ok_iff, mapM_eq_ok_iff_of_keyed hstep, Plan.ofItems,
    and_assoc]

end RenderPlan
