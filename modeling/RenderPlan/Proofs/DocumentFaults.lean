import Mathlib.Data.List.Induction
import Mathlib.Data.List.Nodup
import RenderPlan.Document.Load
import RenderPlan.Proofs.DocumentResolution

/-!
# The first fault of a document

A document that does not resolve is reported with one fault, though it may have many. Textures are
looked at before items and items before scenes; items come in the order of their names and scenes in
the order of the document; the uniform preset of an item comes before its GL preset, and whether the
name of a scene is new comes before its preset. What does resolve is changed in nothing but the
tables that a named preset lies under, and all of its scenes are registered in a library.

## Main definitions

* `Document.ItemFault`, `Document.SceneFault`: what is reported of one entry
* `Document.FirstFault`: what is reported of a document
* `Document.ItemEntry.Yields`, `Document.SceneEntry.Yields`: what an entry may resolve to

## Main results

* `Document.resolveItems_eq_error_iff`, `Document.resolveScenes_eq_error_iff`: the fault of all
  items and of all scenes
* `Document.resolve_eq_error_iff`: a document fails to resolve with its first fault
* `Library.scenes_ofParts_iff`: the scenes that a new library has registered
* `Document.resolves_or_first_fault`: the outcome of resolving a document
-/

namespace RenderPlan

variable {α : Type}

namespace Document

/-! ## Faults of entries -/

section Entries

variable (d : Document)

/-- **What is reported of an item**: the uniform preset that it names and that is not declared, and
if there is nothing wrong with that, the GL preset. -/
inductive ItemFault (name : String) (entry : ItemEntry) : Fault → Prop
  | uniforms {preset : String} (named : entry.uniformPreset = some preset)
      (undeclared : d.uniformPresets.get? preset = none) :
      ItemFault name entry (.unknownPreset (.item name) .uniform preset)
  | glState {preset : String} (uniforms : DeclaresPreset d.uniformPresets entry.uniformPreset)
      (named : entry.glPreset = some preset) (undeclared : d.glPresets.get? preset = none) :
      ItemFault name entry (.unknownPreset (.item name) .gl preset)

/-- **What is reported of a scene**, given the names of the scenes before it: that its own is one of
them, and if it is not, the preset that it names and that is not declared. -/
inductive SceneFault (earlier : List String) (entry : SceneEntry) : Fault → Prop
  | duplicate (declared : entry.scene.name ∈ earlier) :
      SceneFault earlier entry (.duplicateScene entry.scene.name)
  | glState {preset : String} (new : entry.scene.name ∉ earlier)
      (named : entry.glPreset = some preset) (undeclared : d.glPresets.get? preset = none) :
      SceneFault earlier entry (.unknownPreset (.scene entry.scene.name) .gl preset)

/-- The presets that the item names are declared. -/
def HasPresets (entry : ItemEntry) : Prop :=
  DeclaresPreset d.uniformPresets entry.uniformPreset ∧ DeclaresPreset d.glPresets entry.glPreset

/-- Nothing is at fault with any of the scenes, as the first ones of the document. -/
structure ScenesResolve (entries : List SceneEntry) : Prop where
  names : (entries.map fun entry => entry.scene.name).Nodup
  presets : ∀ entry ∈ entries, DeclaresPreset d.glPresets entry.glPreset

/-- **The first fault** of a document. -/
inductive FirstFault : Fault → Prop
  | texture (reserved : d.textures.contains RenderTarget.canvasWord = true) :
      FirstFault (.reservedName RenderTarget.canvasWord)
  | item {name : String} {entry : ItemEntry} {fault : Fault}
      (textures : d.textures.contains RenderTarget.canvasWord = false)
      (first : d.items.FirstViolation (fun _ entry => d.HasPresets entry) name entry)
      (reported : d.ItemFault name entry fault) : FirstFault fault
  | scene {before after : List SceneEntry} {entry : SceneEntry} {fault : Fault}
      (textures : d.textures.contains RenderTarget.canvasWord = false)
      (items : d.items.Forall fun _ entry => d.HasPresets entry)
      (scenes : d.scenes = before ++ entry :: after) (first : d.ScenesResolve before)
      (reported : d.SceneFault (before.map fun entry => entry.scene.name) entry fault) :
      FirstFault fault

end Entries

/-! ## Faults of the parts of a document -/

variable {d : Document} {name : String} {fault : Fault}

/-- A table is laid over every preset but one that is not declared. -/
theorem layOver_eq_error_iff {presets : NameTable (NameTable α)} {owner : Owner}
    {kind : PresetKind} {preset : Option String} {own : NameTable α} :
    layOver presets owner kind preset own = .error fault ↔
      ∃ name, preset = some name ∧ presets.get? name = none ∧
        .unknownPreset owner kind name = fault := by
  cases preset with
  | none => simp [layOver]
  | some name => cases hbase : presets.get? name <;> simp [layOver, hbase]

theorem resolveItem_eq_error_iff {entry : ItemEntry} :
    d.resolveItem name entry = .error fault ↔ d.ItemFault name entry fault := by
  rw [resolveItem, bind_eq_error_iff, layOver_eq_error_iff]
  constructor
  · rintro (⟨preset, hnamed, hundeclared, rfl⟩ | ⟨uniforms, huniforms, h⟩)
    · exact .uniforms hnamed hundeclared
    · -- the uniforms are laid over their preset, so it is the GL preset
      rcases bind_eq_error_iff.mp h with h | ⟨_, _, h⟩
      · obtain ⟨preset, hnamed, hundeclared, rfl⟩ := layOver_eq_error_iff.mp h
        exact .glState (layOver_eq_ok_iff.mp huniforms).1 hnamed hundeclared
      · cases h
  · rintro (⟨hnamed, hundeclared⟩ | ⟨huniforms, hnamed, hundeclared⟩)
    · exact .inl ⟨_, hnamed, hundeclared, rfl⟩
    · exact .inr ⟨_, layOver_eq_ok_iff.mpr ⟨huniforms, rfl⟩,
        bind_eq_error_iff.mpr (.inl (layOver_eq_error_iff.mpr ⟨_, hnamed, hundeclared, rfl⟩))⟩

theorem exists_resolveItem_eq_ok_iff {entry : ItemEntry} :
    (∃ item, d.resolveItem name entry = .ok item) ↔ d.HasPresets entry := by
  simp only [resolveItem_eq_ok_iff, HasPresets, exists_and_left, exists_eq, and_true]

/-- **The items fail** with the fault of the one under the least name that has one. -/
theorem resolveItems_eq_error_iff :
    d.resolveItems = .error fault ↔
      ∃ name entry, d.items.FirstViolation (fun _ entry => d.HasPresets entry) name entry ∧
        d.ItemFault name entry fault := by
  have hstep (entry : String × ItemEntry) :
      (∃ named, (d.resolveItem entry.1 entry.2).map (fun item => (entry.1, item)) = .ok named) ↔
        d.HasPresets entry.2 := by
    simp only [map_eq_ok_iff, ← @exists_resolveItem_eq_ok_iff d entry.1 entry.2]
    constructor
    · rintro ⟨_, item, hitem, -⟩
      exact ⟨item, hitem⟩
    · rintro ⟨item, hitem⟩
      exact ⟨_, item, hitem, rfl⟩
  simp only [resolveItems, map_eq_error_iff, mapM_eq_error_iff, hstep, resolveItem_eq_error_iff,
    NameTable.firstViolation_iff]
  constructor
  · rintro ⟨before, ⟨name, entry⟩, after, hsplit, hbefore, hfault⟩
    refine ⟨name, entry, ⟨before, after, hsplit, hbefore, fun hpresets => ?_⟩, hfault⟩
    -- an item with a fault has not all of its presets
    obtain ⟨item, hitem⟩ := exists_resolveItem_eq_ok_iff.mpr hpresets
    cases hitem.symm.trans (resolveItem_eq_error_iff.mpr hfault)
  · rintro ⟨name, entry, ⟨before, after, hsplit, hbefore, -⟩, hfault⟩
    exact ⟨before, (name, entry), after, hsplit, hbefore, hfault⟩

theorem resolveScene_eq_error_iff {entry : SceneEntry} :
    d.resolveScene entry = .error fault ↔
      ∃ preset, entry.glPreset = some preset ∧ d.glPresets.get? preset = none ∧
        .unknownPreset (.scene entry.scene.name) .gl preset = fault := by
  rw [resolveScene, bind_eq_error_iff, layOver_eq_error_iff]
  refine or_iff_left ?_
  rintro ⟨_, _, h⟩
  cases h

/-- Only which names were declared before matters, not their order. -/
theorem SceneFault.of_subset_of_subset {earlier earlier' : List String} {entry : SceneEntry}
    (h : d.SceneFault earlier entry fault) (hsub : earlier ⊆ earlier')
    (hsub' : earlier' ⊆ earlier) : d.SceneFault earlier' entry fault := by
  cases h with
  | duplicate declared => exact .duplicate (hsub declared)
  | glState new named undeclared => exact .glState (fun h => new (hsub' h)) named undeclared

section OneScene

variable {entry : SceneEntry} {rest : List SceneEntry} {declared : List String}

theorem exists_resolveScenes_cons_eq_ok_iff :
    (∃ scenes, d.resolveScenes (entry :: rest) declared = .ok scenes) ↔
      (entry.scene.name ∉ declared ∧ DeclaresPreset d.glPresets entry.glPreset) ∧
        ∃ scenes, d.resolveScenes rest (entry.scene.name :: declared) = .ok scenes := by
  by_cases hdeclared : entry.scene.name ∈ declared
  · rw [resolveScenes, if_pos hdeclared]
    refine iff_of_false ?_ fun h => h.1.1 hdeclared
    rintro ⟨_, h⟩
    cases h
  · rw [resolveScenes, if_neg hdeclared]
    constructor
    · rintro ⟨scenes, h⟩
      obtain ⟨scene, hscene, h⟩ := bind_eq_ok_iff.mp h
      obtain ⟨scenes, hscenes, -⟩ := bind_eq_ok_iff.mp h
      exact ⟨⟨hdeclared, (resolveScene_eq_ok_iff.mp hscene).1⟩, scenes, hscenes⟩
    · rintro ⟨⟨-, hpreset⟩, scenes, hscenes⟩
      exact ⟨_, bind_eq_ok_iff.mpr ⟨_, resolveScene_eq_ok_iff.mpr ⟨hpreset, rfl⟩,
        bind_eq_ok_iff.mpr ⟨_, hscenes, rfl⟩⟩⟩

theorem resolveScenes_cons_eq_error_iff :
    d.resolveScenes (entry :: rest) declared = .error fault ↔
      d.SceneFault declared entry fault ∨
        (entry.scene.name ∉ declared ∧ DeclaresPreset d.glPresets entry.glPreset) ∧
          d.resolveScenes rest (entry.scene.name :: declared) = .error fault := by
  -- the name is looked at before the preset, so a scene with both faults counts as declared twice
  by_cases hdeclared : entry.scene.name ∈ declared
  · rw [resolveScenes, if_pos hdeclared]
    constructor
    · intro h
      cases h
      exact .inl (.duplicate hdeclared)
    · rintro ((⟨-⟩ | ⟨hnew, -⟩) | ⟨⟨hnew, -⟩, -⟩)
      · rfl
      · exact absurd hdeclared hnew
      · exact absurd hdeclared hnew
  · rw [resolveScenes, if_neg hdeclared]
    constructor
    · intro h
      rcases bind_eq_error_iff.mp h with h | ⟨scene, hscene, h⟩
      · obtain ⟨preset, hnamed, hundeclared, rfl⟩ := resolveScene_eq_error_iff.mp h
        exact .inl (.glState hdeclared hnamed hundeclared)
      · refine .inr ⟨⟨hdeclared, (resolveScene_eq_ok_iff.mp hscene).1⟩, ?_⟩
        rcases bind_eq_error_iff.mp h with h | ⟨_, _, h⟩
        · exact h
        · cases h
    · rintro ((⟨hold⟩ | ⟨-, hnamed, hundeclared⟩) | ⟨⟨-, hpreset⟩, hrest⟩)
      · exact absurd hold hdeclared
      · exact bind_eq_error_iff.mpr
          (.inl (resolveScene_eq_error_iff.mpr ⟨_, hnamed, hundeclared, rfl⟩))
      · exact bind_eq_error_iff.mpr (.inr ⟨_, resolveScene_eq_ok_iff.mpr ⟨hpreset, rfl⟩,
          bind_eq_error_iff.mpr (.inl hrest)⟩)

end OneScene

/-- **Scenes fail** with the fault of the first that has one, given the names declared before. -/
theorem resolveScenes_eq_error_iff {entries : List SceneEntry} {declared : List String} :
    d.resolveScenes entries declared = .error fault ↔
      ∃ before entry after, entries = before ++ entry :: after ∧
        (∃ scenes, d.resolveScenes before declared = .ok scenes) ∧
        d.SceneFault (before.map (fun entry => entry.scene.name) ++ declared) entry fault := by
  induction entries generalizing declared with
  | nil => simp [resolveScenes]
  | cons first rest ih =>
    rw [resolveScenes_cons_eq_error_iff, ih]
    constructor
    · rintro (h | ⟨hfirst, before, entry, after, rfl, hbefore, h⟩)
      · exact ⟨[], first, rest, rfl, ⟨[], rfl⟩, h⟩
      · refine ⟨first :: before, entry, after, rfl,
          exists_resolveScenes_cons_eq_ok_iff.mpr ⟨hfirst, hbefore⟩, ?_⟩
        -- the same names were declared before, listed in another order
        exact h.of_subset_of_subset (by simp) (by simp)
    · rintro ⟨before, entry, after, h, hbefore, hfault⟩
      cases before with
      | nil =>
        obtain ⟨rfl, rfl⟩ := List.cons.inj h
        exact .inl hfault
      | cons _ before =>
        obtain ⟨rfl, rfl⟩ := List.cons.inj h
        obtain ⟨hfirst, hbefore⟩ := exists_resolveScenes_cons_eq_ok_iff.mp hbefore
        refine .inr ⟨hfirst, before, entry, after, rfl, hbefore, ?_⟩
        exact hfault.of_subset_of_subset (by simp) (by simp)

theorem exists_resolveScenes_eq_ok_iff {entries : List SceneEntry} :
    (∃ scenes, d.resolveScenes entries [] = .ok scenes) ↔ d.ScenesResolve entries := by
  simp only [resolveScenes_eq_ok_iff, exists_and_left, exists_eq, and_true]
  constructor
  · rintro ⟨⟨hnames, -⟩, hpresets⟩
    exact ⟨hnames, hpresets⟩
  · rintro ⟨hnames, hpresets⟩
    exact ⟨⟨hnames, by simp⟩, hpresets⟩

/-- **A document fails to resolve** with its first fault. -/
theorem resolve_eq_error_iff : d.resolve = .error fault ↔ d.FirstFault fault := by
  -- a fault is reported only when no step before its own has failed, which is what a first fault
  -- says of the declarations before it
  cases htexture : d.textures.contains RenderTarget.canvasWord with
  | true =>
    rw [resolve, if_pos htexture]
    constructor
    · intro h
      cases h
      exact .texture htexture
    · rintro (⟨-⟩ | ⟨htextures, -, -⟩ | ⟨htextures, -, -, -, -⟩)
      · rfl
      · cases htextures.symm.trans htexture
      · cases htextures.symm.trans htexture
  | false =>
    rw [resolve, if_neg (by rw [htexture]; exact Bool.false_ne_true)]
    constructor
    · intro h
      rcases bind_eq_error_iff.mp h with h | ⟨items, hitems, h⟩
      · obtain ⟨name, entry, hfirst, hfault⟩ := resolveItems_eq_error_iff.mp h
        exact .item htexture hfirst hfault
      · rcases bind_eq_error_iff.mp h with h | ⟨_, _, h⟩
        · obtain ⟨before, entry, after, hsplit, hbefore, hfault⟩ :=
            resolveScenes_eq_error_iff.mp h
          rw [List.append_nil] at hfault
          exact .scene htexture (resolveItems_eq_ok_iff.mp hitems).1 hsplit
            (exists_resolveScenes_eq_ok_iff.mp hbefore) hfault
        · cases h
    · rintro (⟨hreserved⟩ | ⟨-, hfirst, hfault⟩ | ⟨-, hitems, hsplit, hbefore, hfault⟩)
      · cases hreserved.symm.trans htexture
      · exact bind_eq_error_iff.mpr
          (.inl (resolveItems_eq_error_iff.mpr ⟨_, _, hfirst, hfault⟩))
      · refine bind_eq_error_iff.mpr (.inr ⟨_, resolveItems_eq_ok_iff.mpr ⟨hitems, rfl⟩,
          bind_eq_error_iff.mpr (.inl (resolveScenes_eq_error_iff.mpr ⟨_, _, _, hsplit,
            exists_resolveScenes_eq_ok_iff.mpr hbefore, ?_⟩))⟩)
        rw [List.append_nil]
        exact hfault

/-! ## What a document resolves to -/

/-- The item is that of the entry but for the tables that a named preset lies under. -/
structure ItemEntry.Yields (entry : ItemEntry) (item : Item) : Prop where
  others : item = { entry.item with uniforms := item.uniforms, glState := item.glState }
  uniforms : entry.uniformPreset = none → item.uniforms = entry.item.uniforms
  glState : entry.glPreset = none → item.glState = entry.item.glState

/-- The scene is that of the entry but for the table that a named preset lies under. -/
structure SceneEntry.Yields (entry : SceneEntry) (scene : Scene) : Prop where
  others : scene = { entry.scene with glState := scene.glState }
  glState : entry.glPreset = none → scene.glState = entry.scene.glState

/-- A table stays as it is where no preset is named. -/
theorem presetTable_none_overriddenBy (presets : NameTable (NameTable α)) (own : NameTable α) :
    (presetTable presets none).overriddenBy own = own :=
  NameTable.empty_overriddenBy own

/-- No two scenes that a document resolves to have one name. -/
theorem nodup_names_of_resolve {parts : Parts} (h : d.resolve = .ok parts) :
    (parts.scenes.map Scene.name).Nodup := by
  obtain ⟨hresolves, rfl⟩ := resolve_eq_ok_iff.mp h
  have hcomposed : d.composed.scenes.map Scene.name =
      d.scenes.map fun entry => entry.scene.name := List.map_map ..
  rw [hcomposed]
  exact hresolves.sceneNames

theorem yields_composedItem (d : Document) (entry : ItemEntry) :
    entry.Yields (d.composedItem entry) where
  others := rfl
  uniforms h := by rw [composedItem, h, presetTable_none_overriddenBy]
  glState h := by rw [composedItem, h, presetTable_none_overriddenBy]

theorem yields_composedScene (d : Document) (entry : SceneEntry) :
    entry.Yields (d.composedScene entry) where
  others := rfl
  glState h := by rw [composedScene, h, presetTable_none_overriddenBy]

end Document

/-! ## The library of a document -/

namespace Library

variable {catalogs : Shared Catalogs} {scenes : List Scene}

/-- **A new library** has registered every scene under its name, if no two have one name. -/
theorem scenes_ofParts_iff (hnames : (scenes.map Scene.name).Nodup) {name : String}
    {scene : Scene} :
    (ofParts catalogs scenes).scenes.get? name = some scene ↔
      scene ∈ scenes ∧ scene.name = name := by
  -- the latest scene comes last, so the induction is from the end of the list
  induction scenes using List.reverseRecOn with
  | nil => simp [ofParts, ofCatalogs]
  | append_singleton scenes last ih =>
    rw [List.map_append, List.nodup_append] at hnames
    obtain ⟨hscenes, -, hlast⟩ := hnames
    have hnew : ∀ other ∈ scenes, other.name ≠ last.name := fun other hother =>
      hlast _ (List.mem_map_of_mem hother) _ (List.mem_singleton_self _)
    rw [ofParts, List.foldl_concat, ← ofParts, setScene, NameTable.get?_insert, List.mem_append,
      List.mem_singleton]
    split
    · next hname =>
      subst hname
      rw [Option.some_inj]
      constructor
      · rintro rfl
        exact ⟨.inr rfl, rfl⟩
      · rintro ⟨hscene | rfl, hname⟩
        · exact absurd hname (hnew scene hscene)
        · rfl
    · next hname =>
      rw [ih hscenes]
      refine and_congr_left fun hsame => (or_iff_left ?_).symm
      rintro rfl
      exact hname hsame.symm

/-- The scenes of a new library are those that it was made from, in the order of their names. -/
theorem values_ofParts_perm (hnames : (scenes.map Scene.name).Nodup) :
    (ofParts catalogs scenes).scenes.values.Perm scenes := by
  have hkeys : (ofParts catalogs scenes).scenes.values.map Scene.name =
      (ofParts catalogs scenes).scenes.keys := by
    rw [NameTable.values, NameTable.keys, List.map_map]
    exact List.map_congr_left fun entry hentry =>
      ((scenes_ofParts_iff hnames).mp (NameTable.get?_eq_some_iff.mpr hentry)).2
  have hvalues : (ofParts catalogs scenes).scenes.values.Nodup :=
    List.Nodup.of_map Scene.name (hkeys ▸ NameTable.nodup_keys _)
  refine (List.perm_ext_iff_of_nodup hvalues (List.Nodup.of_map Scene.name hnames)).mpr ?_
  intro scene
  simp only [NameTable.mem_values_iff, scenes_ofParts_iff hnames, exists_and_left, exists_eq',
    and_true]

theorem catalogs_ofParts : (ofParts catalogs scenes).catalogs = catalogs := by
  induction scenes using List.reverseRecOn with
  | nil => rfl
  | append_singleton scenes last ih =>
    rw [ofParts, List.foldl_concat, ← ofParts]
    exact ih

end Library

namespace Document

/-- **A document resolves or has a first fault**, which is then reported. Catalogs and scenes that
it resolves to have the programs, models and textures of the document, an item under each name that
the document has an item under, and its scenes in their order, no two of one name. Items and scenes
are those of their entries but for the tables that a named preset lies under. Written down again,
they resolve to the same; and the library made of them has registered all of these scenes and no
others. -/
theorem resolves_or_first_fault (d : Document) :
    (∀ fault, d.resolve = .error fault ↔ d.FirstFault fault) ∧
    ((∃ parts, d.resolve = .ok parts) ↔ ∀ fault, ¬d.FirstFault fault) ∧
    ∀ parts, d.resolve = .ok parts →
      (parts.catalogs.programs = d.programs ∧ parts.catalogs.models = d.models ∧
        parts.catalogs.textures = d.textures) ∧
      (∀ name, Option.Rel ItemEntry.Yields (d.items.get? name)
        (parts.catalogs.items.get? name)) ∧
      (List.Forall₂ SceneEntry.Yields d.scenes parts.scenes ∧
        (parts.scenes.map Scene.name).Nodup) ∧
      (ofParts parts).resolve = .ok parts ∧
      parts.library.catalogs.value = parts.catalogs ∧
      parts.library.scenes.values.Perm parts.scenes ∧
      ∀ scene ∈ parts.scenes, parts.library.scenes.get? scene.name = some scene := by
  refine ⟨fun _ => resolve_eq_error_iff, ?_, fun parts h => ?_⟩
  · simp only [← resolve_eq_error_iff]
    cases d.resolve <;> simp
  · have hnames := nodup_names_of_resolve h
    obtain ⟨hresolves, rfl⟩ := resolve_eq_ok_iff.mp h
    refine ⟨⟨rfl, rfl, rfl⟩, fun name => ?_, ⟨?_, hnames⟩,
      resolve_ofParts_eq_ok_iff.mpr ⟨⟨hresolves.texture, hnames⟩, rfl⟩,
      congrArg Shared.value Library.catalogs_ofParts, Library.values_ofParts_perm hnames,
      fun scene hscene => (Library.scenes_ofParts_iff hnames).mpr ⟨hscene, rfl⟩⟩
    · rw [composed, NameTable.get?_map]
      cases d.items.get? name with
      | none => exact .none
      | some entry => exact .some (yields_composedItem d entry)
    · rw [composed, List.forall₂_map_right_iff, List.forall₂_same]
      exact fun entry _ => yields_composedScene d entry

/-- Of the faults of two items and a scene, that of the item of the lesser name is reported. -/
example :
    let item : Item := { program := "dots", primitive := .points }
    resolve {
      items := .ofList [("b", { uniformPreset := some "plain", item }),
        ("a", { glPreset := some "picking", item })]
      scenes := [{ scene := { name := "main" } }, { scene := { name := "main" } }] } =
        .error (.unknownPreset (.item "a") .gl "picking") := by
  decide

end Document

end RenderPlan
