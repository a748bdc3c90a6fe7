import RenderPlan.Buffer
import RenderPlan.Json.Record
import RenderPlan.Program
import RenderPlan.Texture

/-!
# The JSON form of programs, buffers and textures

The origin of a buffer or texture is also read under the name `datasource`, and the scale of a
texture under `textureScalingFactor`.
-/

namespace RenderPlan

open Json (Value Field Codec Keyword encode decode)

instance : Keyword Buffer.Origin where
  all := [.localStatic, .serverHost, .serverDevice, .vertexIndex, .edgeIndex]
  word
    | .localStatic => "LOCAL_STATIC"
    | .serverHost => "SERVER_HOST"
    | .serverDevice => "SERVER_DEVICE"
    | .vertexIndex => "VERTEX_INDEX"
    | .edgeIndex => "EDGE_INDEX"

instance : Keyword IndexLookup where
  all := [.vertex, .edge]
  word
    | .vertex => "VERTEX_INDEX"
    | .edge => "EDGE_INDEX"

instance : Keyword Component where
  all := [.float, .unsignedByte, .unsignedShort, .unsignedInt]
  word
    | .float => "FLOAT"
    | .unsignedByte => "UNSIGNED_BYTE"
    | .unsignedShort => "UNSIGNED_SHORT"
    | .unsignedInt => "UNSIGNED_INT"

instance : Keyword Texture.Origin where
  all := [.client, .server]
  word
    | .client => "CLIENT"
    | .server => "SERVER"

namespace Program

/-- The fields of a program. -/
def fields : List Field := [⟨"attributes", []⟩, ⟨"textures", []⟩]

instance : Codec Program where
  encode p := .object [("attributes", encode p.attributes), ("textures", encode p.samplers)]
  decode source v := do
    let r ← v.record? source fields
    return {
      attributes := ← r.withDefault "attributes" []
      samplers := ← r.withDefault "textures" [] }

end Program

namespace ElementLayout

/-- The fields of an element layout. -/
def fields : List Field := [⟨"type", []⟩, ⟨"count", []⟩, ⟨"normalize", []⟩]

instance : Codec ElementLayout where
  encode l := .object
    [("type", encode l.component), ("count", encode l.count), ("normalize", encode l.normalized)]
  decode source v := do
    let r ← v.record? source fields
    return {
      component := ← r.required "type"
      count := ← r.required "count"
      normalized := ← r.withDefault "normalize" false }

end ElementLayout

namespace Buffer

/-- The fields of a buffer. -/
def fields : List Field := [⟨"origin", ["datasource"]⟩, ⟨"layout", []⟩]

instance : Codec Buffer where
  encode b := .object [("origin", encode b.origin), ("layout", encode b.layout)]
  decode source v := do
    let r ← v.record? source fields
    return {
      origin := ← r.required "origin"
      layout := ← r.required "layout" }

end Buffer

namespace Texture

/-- The fields of a texture. -/
def fields : List Field :=
  [⟨"origin", ["datasource"]⟩, ⟨"scalingFactor", ["textureScalingFactor"]⟩]

/-- The scale of a texture that gives none: the canvas size. -/
def defaultScale : Binary32 := 1

instance : Codec Texture where
  encode t := .object [("origin", encode t.origin), ("scalingFactor", encode t.scale)]
  decode source v := do
    let r ← v.record? source fields
    return {
      origin := ← r.required "origin"
      scale := ← r.withDefault "scalingFactor" defaultScale }

end Texture

end RenderPlan
