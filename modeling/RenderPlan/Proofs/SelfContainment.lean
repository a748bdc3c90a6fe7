import RenderPlan.Proofs.PlanContents

/-!
# Plans are self-contained

Compiling reads from the catalogs the items that the render list names, the programs and textures
they use, and single attributes of models. Every declaration that it reads it records in the plan,
and what it does not record it has not read. So the catalogs that a plan can be compiled from are
exactly those that declare what the plan records, whatever else they declare.

## Main definitions

* `Plan.DeclaredIn`: the catalogs declare everything that a plan records
* `Plan.declarations`: the catalogs that declare nothing else
* `Catalogs.Within`: everything declared in some catalogs is declared alike in others

## Main results

* `ResolvedItem.FoundIn.of_declaredIn`: an item that a plan was made of is found wherever the plan
  is declared
* `Scene.compile_eq_ok_iff_declaredIn`: the catalogs that a plan can be compiled from
* `Plan.compiles_from_its_declarations`: what follows for the plan's own declarations and for
  catalogs with more in them
-/

namespace RenderPlan

/-! ## Tables -/

section Tables

variable {α : Type}

theorem NameTable.lastWrite_eq_some_iff {lookup : String → Option α} {name : String} {value : α} :
    ∀ {entries : List (String × α)}, (∀ entry ∈ entries, lookup entry.1 = some entry.2) →
      (lastWrite name entries = some value ↔ (name, value) ∈ entries)
  | [], _ => by simp [lastWrite]
  | entry :: rest, h => by
    obtain ⟨hentry, hrest⟩ := List.forall_mem_cons.mp h
    rw [lastWrite, Option.or_eq_some_iff, lastWrite_eq_some_iff hrest, List.mem_cons, or_comm]
    -- an entry that a later one of its name replaces is that later one
    constructor
    · rintro (⟨-, hhead⟩ | hmem)
      · obtain ⟨rfl, rfl⟩ := Option.ite_some_none_eq_some.mp hhead
        exact .inl rfl
      · exact .inr hmem
    · rintro (rfl | hmem)
      · cases hlast : lastWrite name rest with
        | none => exact .inl ⟨rfl, if_pos rfl⟩
        | some other =>
          have hother := (lastWrite_eq_some_iff hrest).mp hlast
          have hvalue : other = value := Option.some.inj ((hrest _ hother).symm.trans hentry)
          exact .inr (hvalue ▸ hother)
      · exact .inr hmem

/-- A table made of entries that all agree with one look-up holds exactly these. -/
theorem NameTable.get?_ofList_eq_some_iff {lookup : String → Option α}
    {entries : List (String × α)} (h : ∀ entry ∈ entries, lookup entry.1 = some entry.2)
    {name : String} {value : α} :
    (ofList entries).get? name = some value ↔ (name, value) ∈ entries := by
  rw [ofList, get?_insertAll, get?_empty, Option.or_none, lastWrite_eq_some_iff h]

end Tables

/-! ## Declarations of a plan -/

/-- Everything that the first catalogs declare is declared alike in the second, which may declare
more: further attributes of the same models, too. -/
structure Catalogs.Within (c c' : Catalogs) : Prop where
  items : c.items.Forall fun name item => c'.items.get? name = some item
  programs : c.programs.Forall fun name program => c'.programs.get? name = some program
  textures : c.textures.Forall fun name texture => c'.textures.get? name = some texture
  attributes : ∀ ref buffer, c.buffer? ref = some buffer → c'.buffer? ref = some buffer

namespace Plan

/-- **The catalogs declare what the plan records**: each item of it with the recorded
specification, each of its programs and textures, and each attribute of its models. -/
structure DeclaredIn (p : Plan) (c : Catalogs) : Prop where
  items : ∀ d ∈ p.draws, c.items.get? d.name = some d.item
  programs : p.programs.Forall fun name program => c.programs.get? name = some program
  textures : p.textures.Forall fun name texture => c.textures.get? name = some texture
  attributes : p.models.Forall fun model attributes =>
    attributes.Forall fun name buffer => c.buffer? ⟨model, name⟩ = some buffer

instance (p : Plan) (c : Catalogs) : Decidable (p.DeclaredIn c) :=
  decidable_of_iff
    ((∀ d ∈ p.draws, c.items.get? d.name = some d.item) ∧
      (p.programs.Forall fun name program => c.programs.get? name = some program) ∧
      (p.textures.Forall fun name texture => c.textures.get? name = some texture) ∧
      p.models.Forall fun model attributes =>
        attributes.Forall fun name buffer => c.buffer? ⟨model, name⟩ = some buffer)
    ⟨fun ⟨items, programs, textures, attributes⟩ => ⟨items, programs, textures, attributes⟩,
      fun h => ⟨h.items, h.programs, h.textures, h.attributes⟩⟩

/-- The catalogs that declare what the plan records, and nothing else. -/
def declarations (p : Plan) : Catalogs where
  programs := p.programs
  models := p.models
  textures := p.textures
  items := .ofList (p.draws.map fun d => (d.name, d.item))

theorem forall_attributes_iff {models : NameTable Model} {P : AttributeRef → Buffer → Prop} :
    (models.Forall fun model attributes => attributes.Forall fun name => P ⟨model, name⟩) ↔
      ∀ ref buffer, attributeOf? models ref = some buffer → P ref buffer := by
  simp only [attributeOf?, Option.bind_eq_some_iff, NameTable.Forall]
  constructor
  · rintro h ref buffer ⟨attributes, hmodel, hname⟩
    exact h ref.model attributes hmodel ref.name buffer hname
  · intro h model attributes hmodel name buffer hname
    exact h ⟨model, name⟩ buffer ⟨attributes, hmodel, hname⟩

theorem DeclaredIn.attribute {p : Plan} {c : Catalogs} (h : p.DeclaredIn c) :
    ∀ ref buffer, attributeOf? p.models ref = some buffer → c.buffer? ref = some buffer :=
  (forall_attributes_iff (P := fun ref buffer => c.buffer? ref = some buffer)).mp h.attributes

theorem DeclaredIn.within {p : Plan} {c c' : Catalogs} (h : p.DeclaredIn c) (hc : c.Within c') :
    p.DeclaredIn c' where
  items d hd := hc.items _ _ (h.items d hd)
  programs name program hprogram := hc.programs _ _ (h.programs name program hprogram)
  textures name texture htexture := hc.textures _ _ (h.textures name texture htexture)
  attributes := forall_attributes_iff.mpr fun ref buffer hbuffer =>
    hc.attributes _ _ (h.attribute ref buffer hbuffer)

end Plan

/-! ## Compiling from what is declared -/

section Compiling

variable {c c' : Catalogs} {s : Scene} {index : TriggerIndex} {rs : List ResolvedItem}

/-- A plan records only what the catalogs declare that its items were found in. -/
theorem Plan.declaredIn_of_foundIn (hrs : ∀ r ∈ rs, r.FoundIn c) :
    (ofItems s index rs).DeclaredIn c where
  items := by
    rw [draws_ofItems, List.forall_mem_map]
    exact fun r hr => (hrs r hr).item
  programs name program hprogram := by
    obtain ⟨r, hr, huse⟩ := (programs_ofItems hrs).mp hprogram
    cases huse
    exact (hrs r hr).program
  textures name texture htexture := by
    obtain ⟨r, hr, huse⟩ := (textures_ofItems hrs).mp htexture
    exact (hrs r hr).textureUses _ huse
  attributes := forall_attributes_iff.mpr fun ref buffer hbuffer => by
    obtain ⟨r, hr, huse⟩ := (models_ofItems hrs).mp hbuffer
    exact (hrs r hr).buffers _ huse

/-- **Nothing is read that is not recorded**: an item that a plan was made of is found in all
catalogs that declare what the plan records. -/
theorem ResolvedItem.FoundIn.of_declaredIn (hrs : ∀ r ∈ rs, r.FoundIn c)
    (hc' : (Plan.ofItems s index rs).DeclaredIn c') {r : ResolvedItem} (hr : r ∈ rs) :
    r.FoundIn c' := by
  have hfound := hrs r hr
  -- the plan records every use of the item, so each is declared in the other catalogs as well
  have hitem : c'.items.get? r.name = some r.item := by
    have hitems := hc'.items
    rw [Plan.draws_ofItems, List.forall_mem_map] at hitems
    exact hitems r hr
  have hprogram : c'.programs.get? r.item.program = some r.program :=
    hc'.programs _ _ ((Plan.programs_ofItems hrs).mpr ⟨r, hr, rfl⟩)
  have htexture : ∀ use ∈ r.textureUses, c'.textures.get? use.1 = some use.2 := fun use huse =>
    hc'.textures _ _ ((Plan.textures_ofItems hrs).mpr ⟨r, hr, huse⟩)
  have hbuffer : ∀ use ∈ r.buffers, c'.buffer? use.1 = some use.2 := fun use huse =>
    hc'.attribute _ _ ((Plan.models_ofItems hrs).mpr ⟨r, hr, huse⟩)
  refine { hfound with
    item := hitem
    program := hprogram
    samples := fun use huse => htexture use (List.mem_append_left _ huse)
    buffers := hbuffer
    target := fun use huse => htexture use (List.mem_append_right _ ?_) }
  exact Option.mem_toList.mpr huse

variable {p : Plan}

/-- **The catalogs that a plan can be compiled from** are those that declare what it records. -/
theorem Scene.compile_eq_ok_iff_declaredIn (h : s.compile c index = .ok p) :
    s.compile c' index = .ok p ↔ p.DeclaredIn c' := by
  constructor
  · intro h'
    obtain ⟨rs, -, hrs, rfl⟩ := compile_eq_ok_iff.mp h'
    exact Plan.declaredIn_of_foundIn hrs
  · intro hc'
    -- the items that the plan was made of are found again, and make the same plan
    obtain ⟨rs, hrender, hrs, rfl⟩ := compile_eq_ok_iff.mp h
    exact compile_eq_ok_iff.mpr ⟨rs, hrender, fun r hr => .of_declaredIn hrs hc' hr, rfl⟩

/-- A compiled plan is declared in its own declarations. -/
theorem Plan.declaredIn_declarations (h : s.compile c index = .ok p) :
    p.DeclaredIn p.declarations where
  items d hd := by
    -- an item drawn more than once is the same item each time, that of the catalogs
    have hdeclared := (Scene.compile_eq_ok_iff_declaredIn h).mp h
    have hitems : ∀ entry ∈ p.draws.map fun d => (d.name, d.item),
        c.items.get? entry.1 = some entry.2 := List.forall_mem_map.mpr hdeclared.items
    rw [declarations, NameTable.get?_ofList_eq_some_iff hitems]
    exact List.mem_map_of_mem hd
  programs _ _ hprogram := hprogram
  textures _ _ htexture := htexture
  attributes model attributes hmodel name buffer hname :=
    Option.bind_eq_some_iff.mpr ⟨attributes, hmodel, hname⟩

/-- **A plan depends only on the declarations that it carries.** A scene compiled to a plan compiles
to the very same plan from any catalogs that declare what the plan records, and from no others. So
the plan can be compiled anew from its own declarations alone, and nothing that is added to the
catalogs, be it an attribute of a model in use, ever changes it. -/
theorem Plan.compiles_from_its_declarations (h : s.compile c index = .ok p) :
    (∀ c', s.compile c' index = .ok p ↔ p.DeclaredIn c') ∧
      s.compile p.declarations index = .ok p ∧
      ∀ c', c.Within c' → s.compile c' index = .ok p := by
  have hiff (c' : Catalogs) : s.compile c' index = .ok p ↔ p.DeclaredIn c' :=
    Scene.compile_eq_ok_iff_declaredIn h
  refine ⟨hiff, (hiff _).mpr (declaredIn_declarations h), fun c' hc' => ?_⟩
  exact (hiff c').mpr (((hiff c).mp h).within hc')

end Compiling

/-! ### A scene that shares a model between two items -/

/-- Catalogs in which two items take different attributes of one model. The texture bound to the
sampler `shade` is not declared, which does not matter, for the program does not have the sampler. -/
def pickCatalogs : Catalogs where
  programs := NameTable.empty.insert "dots" ⟨["position"], ["glyph"]⟩
  models := NameTable.empty.insert "points"
    (((NameTable.empty.insert "xy" ⟨.serverDevice, ⟨.float, 2, false⟩⟩).insert
      "index" ⟨.vertexIndex, ⟨.unsignedInt, 1, false⟩⟩).insert
      "size" ⟨.serverHost, ⟨.float, 1, false⟩⟩)
  textures := (NameTable.empty.insert "glyphs" ⟨.server, .zero⟩).insert "hitmap" ⟨.client, .zero⟩
  items := ((NameTable.empty.insert "dots"
    { program := "dots"
      primitive := .points
      triggers := .ofList ["render"]
      bindings := NameTable.empty.insert "position" ⟨"points", "xy"⟩
      textureBindings := (NameTable.empty.insert "glyph" "glyphs").insert "shade" "shadows" }).insert
    "hits"
    { program := "dots"
      primitive := .points
      triggers := .ofList ["pick", "render"]
      bindings := NameTable.empty.insert "position" ⟨"points", "index"⟩
      target := some (.texture "hitmap")
      readsTarget := true }).insert
    "sizes" { program := "dots", primitive := .points, triggers := .ofList ["resize"] }

/-- The scene that draws two of the items, one of them twice. -/
def pickScene : Scene := { name := "pick", render := ["hits", "dots", "hits"] }

/-- The plan of the scene. -/
def pickPlan : Plan :=
  (pickScene.compile pickCatalogs (.build pickCatalogs.items)).toOption.get rfl

/-- Other catalogs with what the plan records: the item that is not listed and the attribute that is
not referred to are gone, and other attributes, textures and items have come. -/
def otherPickCatalogs : Catalogs where
  programs := pickCatalogs.programs.insert "lines" {}
  models := NameTable.empty.insert "points"
    (((NameTable.empty.insert "xy" ⟨.serverDevice, ⟨.float, 2, false⟩⟩).insert
      "index" ⟨.vertexIndex, ⟨.unsignedInt, 1, false⟩⟩).insert
      "weight" ⟨.serverHost, ⟨.float, 1, false⟩⟩)
  textures := pickCatalogs.textures.insert "shadows" ⟨.server, .zero⟩
  items := (pickCatalogs.items.erase "sizes").insert "edges"
    { program := "lines", primitive := .lines, triggers := .ofList ["pick", "resize"] }

/-- It compiles from the other catalogs, too. -/
theorem Plan.compile_pick_of_other_catalogs :
    pickScene.compile otherPickCatalogs (.build pickCatalogs.items) = .ok pickPlan := by
  have hpick : pickScene.compile pickCatalogs (.build pickCatalogs.items) = .ok pickPlan := rfl
  exact ((compiles_from_its_declarations hpick).1 otherPickCatalogs).mpr (by decide)

end RenderPlan
