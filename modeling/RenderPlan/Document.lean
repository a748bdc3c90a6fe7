import RenderPlan.Catalogs
import RenderPlan.Scene

/-!
# Catalog documents

A document holds the four catalogs and the scenes as they are written down. Uniform tables and GL
state that several items or scenes share are declared once as presets; items and scenes name a
preset and declare only what differs. Resolving a document lays every declaration over its preset.

## Main definitions

* `Document`, `Document.ItemEntry`, `Document.SceneEntry`.
* `Document.Fault`: why a document does not resolve.
* `Document.resolve`, `Document.ofParts`: from a document to catalogs and scenes, and back.
-/

namespace RenderPlan

/-- An item as written, with the presets that it is laid over. -/
structure Document.ItemEntry where
  uniformPreset : Option String := none
  glPreset : Option String := none
  item : Item
deriving DecidableEq, BEq

/-- A scene as written, with the preset that its GL state is laid over. -/
structure Document.SceneEntry where
  glPreset : Option String := none
  scene : Scene
deriving DecidableEq, BEq

/-- Catalogs and scenes as they are written down. -/
structure Document where
  programs : NameTable Program := .empty
  models : NameTable Model := .empty
  textures : NameTable Texture := .empty
  uniformPresets : NameTable UniformTable := .empty
  glPresets : NameTable GlState := .empty
  items : NameTable Document.ItemEntry := .empty
  scenes : List Document.SceneEntry := []
deriving DecidableEq, BEq

namespace Document

/-- Catalogs with the scenes to compile against them. -/
structure Parts where
  catalogs : Catalogs
  scenes : List Scene
deriving DecidableEq, BEq

/-- What names a preset. -/
inductive Owner where
  | item (name : String)
  | scene (name : String)
deriving DecidableEq

/-- What a preset is a table of. -/
inductive PresetKind where
  | uniform
  | gl
deriving DecidableEq

/-- Why a document does not resolve. -/
inductive Fault where
  | unknownPreset (owner : Owner) (kind : PresetKind) (preset : String)
  /-- A texture bears the word that stands for the canvas. -/
  | reservedName (name : String)
  | duplicateScene (name : String)
deriving DecidableEq

namespace Fault

/-- The wording of an owner. -/
def ownerText : Owner → String
  | .item name => "item `" ++ name ++ "`"
  | .scene name => "scene `" ++ name ++ "`"

/-- The wording of a kind of preset. -/
def kindText : PresetKind → String
  | .uniform => "uniform"
  | .gl => "gl"

/-- The wording of a fault. -/
def message : Fault → String
  | .unknownPreset owner kind preset =>
    ownerText owner ++ " references unknown " ++ kindText kind ++ " preset `" ++ preset ++ "`"
  | .reservedName name =>
    "texture name `" ++ name ++ "` is reserved for the default framebuffer"
  | .duplicateScene name => "scene `" ++ name ++ "` is declared more than once"

end Fault

/-- A table laid over the preset it names, if it names one. -/
def layOver {α : Type} (presets : NameTable (NameTable α)) (owner : Owner) (kind : PresetKind)
    (preset : Option String) (own : NameTable α) : Except Fault (NameTable α) :=
  match preset with
  | none => .ok own
  | some preset =>
    match presets.get? preset with
    | none => .error (.unknownPreset owner kind preset)
    | some base => .ok (base.overriddenBy own)

/-- The item of an entry, laid over its presets. -/
def resolveItem (d : Document) (name : String) (entry : ItemEntry) : Except Fault Item := do
  let uniforms ←
    layOver d.uniformPresets (.item name) .uniform entry.uniformPreset entry.item.uniforms
  let glState ← layOver d.glPresets (.item name) .gl entry.glPreset entry.item.glState
  return { entry.item with uniforms, glState }

/-- The scene of an entry, laid over its preset. -/
def resolveScene (d : Document) (entry : SceneEntry) : Except Fault Scene := do
  let glState ← layOver d.glPresets (.scene entry.scene.name) .gl entry.glPreset entry.scene.glState
  return { entry.scene with glState }

/-- The items of the document, laid over their presets in the order of their names. -/
def resolveItems (d : Document) : Except Fault (NameTable Item) :=
  (d.items.entries.mapM fun entry =>
    (d.resolveItem entry.1 entry.2).map fun item => (entry.1, item)).map NameTable.ofList

/-- The scenes, resolved in the order of the document. A scene whose name was declared before is a
fault before its preset is looked at. -/
def resolveScenes (d : Document) : List SceneEntry → List String → Except Fault (List Scene)
  | [], _ => .ok []
  | entry :: rest, declared => do
    if entry.scene.name ∈ declared then throw (.duplicateScene entry.scene.name)
    let scene ← d.resolveScene entry
    let scenes ← resolveScenes d rest (entry.scene.name :: declared)
    return scene :: scenes

/-- The catalogs and scenes of a document, or its first fault: a reserved texture name, then the
faults of items in the order of their names, then those of scenes in the order of the document. -/
def resolve (d : Document) : Except Fault Parts := do
  if d.textures.contains RenderTarget.canvasWord then
    throw (.reservedName RenderTarget.canvasWord)
  let items ← d.resolveItems
  let scenes ← d.resolveScenes d.scenes []
  return ⟨⟨d.programs, d.models, d.textures, items⟩, scenes⟩

/-- The document of catalogs and scenes, without presets. -/
def ofParts (parts : Parts) : Document where
  programs := parts.catalogs.programs
  models := parts.catalogs.models
  textures := parts.catalogs.textures
  items := parts.catalogs.items.map fun item => { item }
  scenes := parts.scenes.map fun scene => { scene }

end Document

end RenderPlan
