import RenderPlan.Document
import RenderPlan.Json.Reader
import RenderPlan.Json.Writer
import RenderPlan.Schema.Resources
import RenderPlan.Schema.Scenes

/-!
# The JSON form of catalogs and documents

An item of a document is written with the names of its presets among its own members, and so is a
scene.

## Main definitions

* The codecs of `Catalogs` and `Document`.
* `Document.read?`, `Document.text`: a document from its text, and back.
-/

namespace RenderPlan

open Json (Value Field Codec encode decode memberIfPresent)

namespace Catalogs

/-- The fields of catalogs. -/
def fields : List Field := [⟨"programs", []⟩, ⟨"models", []⟩, ⟨"textures", []⟩, ⟨"items", []⟩]

instance : Codec Catalogs where
  encode c := .object
    [("programs", encode c.programs), ("models", encode c.models),
      ("textures", encode c.textures), ("items", encode c.items)]
  decode source v := do
    let r ← v.record? source fields
    return {
      programs := ← r.withDefault "programs" .empty
      models := ← r.withDefault "models" .empty
      textures := ← r.withDefault "textures" .empty
      items := ← r.withDefault "items" .empty }

end Catalogs

namespace Document

/-- The fields of an item's entry besides the item's own. -/
def ItemEntry.fields : List Field := [⟨"uniformPreset", []⟩, ⟨"glPreset", []⟩]

instance : Codec ItemEntry where
  encode entry := .object
    (memberIfPresent "uniformPreset" entry.uniformPreset ++
      memberIfPresent "glPreset" entry.glPreset ++ entry.item.members)
  decode source v := do
    let (r, others) ← v.sharedRecord? source ItemEntry.fields
    return {
      uniformPreset := ← r.optional "uniformPreset"
      glPreset := ← r.optional "glPreset"
      item := ← decode .gathered others }

/-- The field of a scene's entry besides the scene's own. -/
def SceneEntry.fields : List Field := [⟨"optionsPreset", []⟩]

instance : Codec SceneEntry where
  encode entry := .object
    (memberIfPresent "optionsPreset" entry.glPreset ++ entry.scene.members)
  decode source v := do
    let (r, others) ← v.sharedRecord? source SceneEntry.fields
    return {
      glPreset := ← r.optional "optionsPreset"
      scene := ← decode source others }

/-- The fields of a document. -/
def fields : List Field :=
  [⟨"programs", []⟩, ⟨"models", []⟩, ⟨"textures", []⟩, ⟨"uniformPresets", []⟩,
    ⟨"glPresets", []⟩, ⟨"items", []⟩, ⟨"scenes", []⟩]

/-- The member of a table that is left out when empty. -/
def memberUnlessEmpty {α : Type} [Codec α] (name : String) (t : NameTable α) :
    List (String × Value) :=
  if t.isEmpty then [] else [(name, encode t)]

instance : Codec Document where
  encode d := .object
    ([("programs", encode d.programs), ("models", encode d.models),
        ("textures", encode d.textures)] ++
      memberUnlessEmpty "uniformPresets" d.uniformPresets ++
      memberUnlessEmpty "glPresets" d.glPresets ++
      [("items", encode d.items), ("scenes", encode d.scenes)])
  decode source v := do
    let r ← v.record? source fields
    return {
      programs := ← r.withDefault "programs" .empty
      models := ← r.withDefault "models" .empty
      textures := ← r.withDefault "textures" .empty
      uniformPresets := ← r.withDefault "uniformPresets" .empty
      glPresets := ← r.withDefault "glPresets" .empty
      items := ← r.withDefault "items" .empty
      scenes := ← r.withDefault "scenes" [] }

/-- The document of a text. -/
def read? (text : String) : Option Document := (Json.read? text).bind (decode .direct)

/-- The indented text of a document. -/
def text (d : Document) : String := (encode d).pretty

end Document

end RenderPlan
