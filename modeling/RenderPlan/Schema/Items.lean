import RenderPlan.Item
import RenderPlan.Json.Record

/-!
# The JSON form of items

Items hold uniforms, GL state and references. A reference is a pair of strings, a target is a
string of which one word stands for the canvas, and an argument of a state call is a number or a
string.
-/

namespace RenderPlan

open Json (Value Field Record Codec Keyword encode decode memberIfPresent)

instance : Keyword Uniform.Shape where
  all := [.float1, .float2, .float3, .float4, .int1, .int2, .matrix4]
  word
    | .float1 => "1f"
    | .float2 => "2f"
    | .float3 => "3f"
    | .float4 => "4f"
    | .int1 => "1i"
    | .int2 => "2i"
    | .matrix4 => "Matrix4fv"

instance : Keyword Primitive where
  all := [.points, .lines, .triangles]
  word
    | .points => "POINTS"
    | .lines => "LINES"
    | .triangles => "TRIANGLES"

namespace Uniform

/-- The fields of a uniform. -/
def fields : List Field := [⟨"uniformType", []⟩, ⟨"defaultValues", []⟩]

instance : Codec Uniform where
  encode u := .object [("uniformType", encode u.shape), ("defaultValues", encode u.defaults)]
  decode source v := do
    let r ← v.record? source fields
    return {
      shape := ← r.required "uniformType"
      defaults := ← r.required "defaultValues" }

end Uniform

instance : Codec GlState.Argument where
  encode
    | .number x => .number (.double x)
    | .symbol name => .string name
  decode _
    | .number n => some (.number n.toDouble)
    | .string name => some (.symbol name)
    | _ => none

instance : Codec AttributeRef where
  encode ref := .array [.string ref.model, .string ref.name]
  decode _
    | .array [.string model, .string name] => some ⟨model, name⟩
    | _ => none

instance : Codec RenderTarget where
  encode target := .string target.name
  decode _ v := v.string?.map RenderTarget.ofName

namespace Item

/-- The fields of an item. -/
def fields : List Field :=
  [⟨"program", []⟩, ⟨"triggers", []⟩, ⟨"bindings", []⟩, ⟨"otherBuffers", []⟩, ⟨"uniforms", []⟩,
    ⟨"textureBindings", []⟩, ⟨"drawType", []⟩, ⟨"glOptions", []⟩, ⟨"renderTarget", []⟩,
    ⟨"readTarget", []⟩]

/-- The members that an item is written as. -/
def members (i : Item) : List (String × Value) :=
  [("program", encode i.program), ("triggers", encode i.triggers),
    ("bindings", encode i.bindings), ("otherBuffers", encode i.otherBuffers),
    ("uniforms", encode i.uniforms), ("textureBindings", encode i.textureBindings),
    ("drawType", encode i.primitive), ("glOptions", encode i.glState)] ++
  memberIfPresent "renderTarget" i.target ++
  [("readTarget", encode i.readsTarget)]

/-- The item of the members found for its fields. -/
def ofRecord? (r : Record) : Option Item := do
  return {
    program := ← r.required "program"
    triggers := ← r.withDefault "triggers" .empty
    bindings := ← r.withDefault "bindings" .empty
    otherBuffers := ← r.withDefault "otherBuffers" .empty
    uniforms := ← r.withDefault "uniforms" .empty
    textureBindings := ← r.withDefault "textureBindings" .empty
    primitive := ← r.required "drawType"
    glState := ← r.withDefault "glOptions" .empty
    target := ← r.optional "renderTarget"
    readsTarget := ← r.withDefault "readTarget" false }

instance : Codec Item where
  encode i := .object i.members
  decode source v := (v.record? source fields).bind ofRecord?

end Item

end RenderPlan
