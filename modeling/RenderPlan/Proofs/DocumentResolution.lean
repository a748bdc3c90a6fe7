import RenderPlan.Document
import RenderPlan.Proofs.FirstFailure

/-!
# Resolving a document

A document resolves when its texture names are free for use, every preset named is declared and no
scene is declared twice. What it resolves to is then given without reference to failures: every item
and every scene of the document, laid over the tables that its presets provide.

## Main definitions

* `Document.presetTable`: what a preset provides, nothing being provided where none is named
* `Document.composedItem`, `Document.composedScene`, `Document.composed`: entries laid over their
  presets
* `Document.Resolves`: nothing is at fault with a document

## Main results

* `Document.resolve_eq_ok_iff`: a document resolves to what it is composed of when nothing is at
  fault with it
* `Document.resolve_ofParts_eq_ok_iff`: when the document of catalogs and scenes resolves to them
-/

namespace RenderPlan

variable {α : Type}

namespace Document

/-! ## Presets -/

/-- The table that a preset provides: the one declared under the name, or nothing where no preset is
named. -/
def presetTable (presets : NameTable (NameTable α)) (preset : Option String) : NameTable α :=
  (preset.bind presets.get?).getD .empty

/-- The preset named, if one is named, is declared. -/
def DeclaresPreset (presets : NameTable (NameTable α)) (preset : Option String) : Prop :=
  ∀ name, preset = some name → ∃ base, presets.get? name = some base

@[simp] theorem declaresPreset_none {presets : NameTable (NameTable α)} :
    DeclaresPreset presets none := by
  simp [DeclaresPreset]

/-- **A table is laid over** what its preset provides, unless the preset is not declared. -/
theorem layOver_eq_ok_iff {presets : NameTable (NameTable α)} {owner : Owner} {kind : PresetKind}
    {preset : Option String} {own t : NameTable α} :
    layOver presets owner kind preset own = .ok t ↔
      DeclaresPreset presets preset ∧ t = (presetTable presets preset).overriddenBy own := by
  cases preset with
  | none => simp [layOver, presetTable, eq_comm]
  | some name =>
    cases hbase : presets.get? name with
    | none => simp [layOver, hbase, DeclaresPreset]
    | some base => simp [layOver, hbase, DeclaresPreset, presetTable, eq_comm]

/-! ## Items and scenes -/

variable (d : Document)

/-- The item of an entry, laid over what its presets provide. -/
def composedItem (entry : ItemEntry) : Item :=
  { entry.item with
    uniforms := (presetTable d.uniformPresets entry.uniformPreset).overriddenBy entry.item.uniforms
    glState := (presetTable d.glPresets entry.glPreset).overriddenBy entry.item.glState }

/-- The scene of an entry, laid over what its preset provides. -/
def composedScene (entry : SceneEntry) : Scene :=
  { entry.scene with
    glState := (presetTable d.glPresets entry.glPreset).overriddenBy entry.scene.glState }

/-- The catalogs and scenes that the entries of the document compose. -/
def composed : Parts :=
  ⟨⟨d.programs, d.models, d.textures, d.items.map d.composedItem⟩, d.scenes.map d.composedScene⟩

/-- **Nothing is at fault** with a document. -/
structure Resolves : Prop where
  /-- No texture bears the word that stands for the canvas. -/
  texture : d.textures.contains RenderTarget.canvasWord = false
  /-- Items name presets that are declared. -/
  items : d.items.Forall fun _ entry =>
    DeclaresPreset d.uniformPresets entry.uniformPreset ∧ DeclaresPreset d.glPresets entry.glPreset
  /-- No two scenes have one name. -/
  sceneNames : (d.scenes.map fun entry => entry.scene.name).Nodup
  /-- Scenes name presets that are declared. -/
  scenes : ∀ entry ∈ d.scenes, DeclaresPreset d.glPresets entry.glPreset

variable {d}

theorem resolveItem_eq_ok_iff {name : String} {entry : ItemEntry} {item : Item} :
    d.resolveItem name entry = .ok item ↔
      (DeclaresPreset d.uniformPresets entry.uniformPreset ∧
        DeclaresPreset d.glPresets entry.glPreset) ∧ item = d.composedItem entry := by
  simp only [resolveItem, bind_eq_ok_iff, layOver_eq_ok_iff]
  constructor
  · rintro ⟨_, ⟨huniform, rfl⟩, _, ⟨hgl, rfl⟩, h⟩
    exact ⟨⟨huniform, hgl⟩, (Except.ok.inj h).symm⟩
  · rintro ⟨⟨huniform, hgl⟩, rfl⟩
    exact ⟨_, ⟨huniform, rfl⟩, _, ⟨hgl, rfl⟩, rfl⟩

theorem resolveScene_eq_ok_iff {entry : SceneEntry} {scene : Scene} :
    d.resolveScene entry = .ok scene ↔
      DeclaresPreset d.glPresets entry.glPreset ∧ scene = d.composedScene entry := by
  simp only [resolveScene, bind_eq_ok_iff, layOver_eq_ok_iff]
  constructor
  · rintro ⟨_, ⟨hgl, rfl⟩, h⟩
    exact ⟨hgl, (Except.ok.inj h).symm⟩
  · rintro ⟨hgl, rfl⟩
    exact ⟨_, ⟨hgl, rfl⟩, rfl⟩

/-- **The items resolve** when every preset that they name is declared. -/
theorem resolveItems_eq_ok_iff {items : NameTable Item} :
    d.resolveItems = .ok items ↔
      (d.items.Forall fun _ entry => DeclaresPreset d.uniformPresets entry.uniformPreset ∧
        DeclaresPreset d.glPresets entry.glPreset) ∧ items = d.items.map d.composedItem := by
  have hstep (entry : String × ItemEntry) (named : String × Item) :
      (d.resolveItem entry.1 entry.2).map (fun item => (entry.1, item)) = .ok named ↔
        (DeclaresPreset d.uniformPresets entry.2.uniformPreset ∧
          DeclaresPreset d.glPresets entry.2.glPreset) ∧
        named = (entry.1, d.composedItem entry.2) := by
    rw [map_eq_ok_iff]
    constructor
    · rintro ⟨item, hitem, rfl⟩
      obtain ⟨hpresets, rfl⟩ := resolveItem_eq_ok_iff.mp hitem
      exact ⟨hpresets, rfl⟩
    · rintro ⟨hpresets, rfl⟩
      exact ⟨_, resolveItem_eq_ok_iff.mpr ⟨hpresets, rfl⟩, rfl⟩
  rw [resolveItems, map_eq_ok_iff, NameTable.forall_iff]
  simp only [mapM_eq_ok_iff_of_guarded hstep, and_assoc, exists_and_left, exists_eq_left]
  -- under the names that they have already, the items are in order
  have hmap :
      NameTable.ofList (d.items.entries.map fun entry => (entry.1, d.composedItem entry.2)) =
        d.items.map d.composedItem :=
    NameTable.ofList_entries (d.items.map d.composedItem)
  rw [hmap, @eq_comm _ items]

/-- **Scenes resolve** when none was declared before and every preset that they name is declared. -/
theorem resolveScenes_eq_ok_iff {entries : List SceneEntry} {declared : List String}
    {scenes : List Scene} :
    d.resolveScenes entries declared = .ok scenes ↔
      ((entries.map fun entry => entry.scene.name).Nodup ∧
        ∀ entry ∈ entries, entry.scene.name ∉ declared) ∧
      (∀ entry ∈ entries, DeclaresPreset d.glPresets entry.glPreset) ∧
      scenes = entries.map d.composedScene := by
  induction entries generalizing declared scenes with
  | nil => simp [resolveScenes, eq_comm]
  | cons entry rest ih =>
    by_cases hdeclared : entry.scene.name ∈ declared
    · rw [resolveScenes, if_pos hdeclared]
      refine iff_of_false (fun h => ?_) fun h => h.1.2 entry (List.mem_cons_self ..) hdeclared
      cases h
    · have hnames : ((entry :: rest).map fun entry => entry.scene.name).Nodup ∧
          (∀ other ∈ entry :: rest, other.scene.name ∉ declared) ↔
          (rest.map fun entry => entry.scene.name).Nodup ∧
            ∀ other ∈ rest, other.scene.name ∉ entry.scene.name :: declared := by
        rw [List.map_cons, List.nodup_cons, List.forall_mem_cons, and_iff_right hdeclared]
        simp only [List.mem_cons, not_or, forall_and, List.mem_map, not_exists, not_and]
        tauto
      rw [hnames, resolveScenes, if_neg hdeclared, List.forall_mem_cons, List.map_cons]
      -- the head resolves by itself, the rest with one more name declared
      constructor
      · intro h
        obtain ⟨scene, hscene, h⟩ := bind_eq_ok_iff.mp h
        obtain ⟨scenes, hscenes, h⟩ := bind_eq_ok_iff.mp h
        obtain ⟨hpreset, rfl⟩ := resolveScene_eq_ok_iff.mp hscene
        obtain ⟨hrest, hpresets, rfl⟩ := ih.mp hscenes
        exact ⟨hrest, ⟨hpreset, hpresets⟩, (Except.ok.inj h).symm⟩
      · rintro ⟨hrest, ⟨hpreset, hpresets⟩, rfl⟩
        exact bind_eq_ok_iff.mpr ⟨_, resolveScene_eq_ok_iff.mpr ⟨hpreset, rfl⟩,
          bind_eq_ok_iff.mpr ⟨_, ih.mpr ⟨hrest, hpresets, rfl⟩, rfl⟩⟩

/-- **A document resolves** to what it is composed of when nothing is at fault with it. -/
theorem resolve_eq_ok_iff {parts : Parts} :
    d.resolve = .ok parts ↔ d.Resolves ∧ parts = d.composed := by
  cases htexture : d.textures.contains RenderTarget.canvasWord with
  | true =>
    rw [resolve, if_pos htexture]
    refine iff_of_false (fun h => ?_) fun h => ?_
    · cases h
    · cases h.1.texture.symm.trans htexture
  | false =>
    rw [resolve, if_neg (by rw [htexture]; exact Bool.false_ne_true)]
    constructor
    · intro h
      obtain ⟨items, hitems, h⟩ := bind_eq_ok_iff.mp h
      obtain ⟨scenes, hscenes, h⟩ := bind_eq_ok_iff.mp h
      obtain ⟨hitemPresets, rfl⟩ := resolveItems_eq_ok_iff.mp hitems
      obtain ⟨⟨hnames, -⟩, hscenePresets, rfl⟩ := resolveScenes_eq_ok_iff.mp hscenes
      exact ⟨⟨htexture, hitemPresets, hnames, hscenePresets⟩, (Except.ok.inj h).symm⟩
    · rintro ⟨h, rfl⟩
      exact bind_eq_ok_iff.mpr ⟨_, resolveItems_eq_ok_iff.mpr ⟨h.items, rfl⟩,
        bind_eq_ok_iff.mpr ⟨_, resolveScenes_eq_ok_iff.mpr
          ⟨⟨h.sceneNames, by simp⟩, h.scenes, rfl⟩, rfl⟩⟩

/-! ## Documents of catalogs and scenes -/

variable {parts parts' : Parts}

/-- Without presets, entries compose what they declare. -/
@[simp] theorem composed_ofParts (parts : Parts) : (ofParts parts).composed = parts := by
  have hitem (item : Item) : (ofParts parts).composedItem { item } = item := by
    simp [composedItem, presetTable]
  have hscene (scene : Scene) : (ofParts parts).composedScene { scene } = scene := by
    simp [composedScene, presetTable]
  have hitems : (ofParts parts).items.map (ofParts parts).composedItem = parts.catalogs.items := by
    refine NameTable.ext_get? fun name => ?_
    rw [ofParts, NameTable.get?_map, NameTable.get?_map, Option.map_map]
    exact (Option.map_congr fun item _ => hitem item).trans Option.map_id'
  have hscenes : (ofParts parts).scenes.map (ofParts parts).composedScene = parts.scenes := by
    rw [ofParts, List.map_map]
    exact (List.map_congr_left fun scene _ => hscene scene).trans (List.map_id _)
  rw [composed, hitems, hscenes]
  rfl

/-- **The document of catalogs and scenes resolves** to them, unless a texture bears the reserved
word or two scenes have one name. -/
theorem resolve_ofParts_eq_ok_iff :
    (ofParts parts).resolve = .ok parts' ↔
      (parts.catalogs.textures.contains RenderTarget.canvasWord = false ∧
        (parts.scenes.map Scene.name).Nodup) ∧ parts' = parts := by
  have hnames : (ofParts parts).scenes.map (fun entry => entry.scene.name) =
      parts.scenes.map Scene.name := List.map_map ..
  rw [resolve_eq_ok_iff, composed_ofParts]
  refine and_congr_left fun _ => ⟨fun h => ⟨h.texture, hnames ▸ h.sceneNames⟩, fun h => ?_⟩
  -- no entry names a preset
  refine ⟨h.1, fun name entry hentry => ?_, hnames ▸ h.2, fun entry hentry => ?_⟩
  · obtain ⟨item, -, rfl⟩ := Option.map_eq_some_iff.mp ((NameTable.get?_map ..).symm.trans hentry)
    exact ⟨declaresPreset_none, declaresPreset_none⟩
  · obtain ⟨scene, -, rfl⟩ := List.mem_map.mp hentry
    exact declaresPreset_none

end Document

end RenderPlan
