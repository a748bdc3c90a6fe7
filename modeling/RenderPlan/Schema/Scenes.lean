import RenderPlan.Json.Record
import RenderPlan.Scene
import RenderPlan.Schema.Items

/-!
# The JSON form of scenes

The edge parameters of a scene are written among its own members, so a scene is read from an object
only.
-/

namespace RenderPlan

open Json (Value Field Record Codec Keyword encode decode memberIfPresent)

namespace Camera

instance : Keyword Projection where
  all := [.flat, .spatial]
  word
    | .flat => "2d"
    | .spatial => "3d"

/-- The fields of the visible region. -/
def Bounds.fields : List Field := [⟨"top", []⟩, ⟨"left", []⟩, ⟨"bottom", []⟩, ⟨"right", []⟩]

instance : Codec Bounds where
  encode b := .object
    [("top", encode b.top), ("left", encode b.left), ("bottom", encode b.bottom),
      ("right", encode b.right)]
  decode source v := do
    let r ← v.record? source Bounds.fields
    return {
      top := ← r.required "top"
      left := ← r.required "left"
      bottom := ← r.required "bottom"
      right := ← r.required "right" }

/-- The fields of a camera. -/
def fields : List Field := [⟨"type", []⟩, ⟨"bounds", []⟩, ⟨"nearPlane", []⟩, ⟨"farPlane", []⟩]

instance : Codec Camera where
  encode c := .object
    [("type", encode c.projection), ("bounds", encode c.bounds),
      ("nearPlane", encode c.nearPlane), ("farPlane", encode c.farPlane)]
  decode source v := do
    let r ← v.record? source fields
    return {
      projection := ← r.required "type"
      bounds := ← r.required "bounds"
      nearPlane := ← r.required "nearPlane"
      farPlane := ← r.required "farPlane" }

end Camera

namespace EdgeParameters

/-- The fields of the edge parameters. -/
def fields : List Field :=
  [⟨"numRenderedSplits", []⟩, ⟨"clientMidEdgeInterpolation", []⟩, ⟨"arcHeight", []⟩]

/-- The members that edge parameters are written as. -/
def members (p : EdgeParameters) : List (String × Value) :=
  memberIfPresent "numRenderedSplits" p.renderedSplits ++
  [("clientMidEdgeInterpolation", encode p.clientMidEdgeInterpolation)] ++
  memberIfPresent "arcHeight" p.arcHeight

instance : Codec EdgeParameters where
  encode p := .object p.members
  decode source v := do
    let r ← v.record? source fields
    return {
      renderedSplits := ← r.optional "numRenderedSplits"
      clientMidEdgeInterpolation := ← r.withDefault "clientMidEdgeInterpolation" false
      arcHeight := ← r.optional "arcHeight" }

end EdgeParameters

namespace Scene

/-- The fields of a scene itself. -/
def fields : List Field := [⟨"name", []⟩, ⟨"camera", []⟩, ⟨"options", []⟩, ⟨"render", []⟩]

/-- The members that a scene is written as. -/
def members (s : Scene) : List (String × Value) :=
  [("name", encode s.name), ("camera", encode s.camera), ("options", encode s.glState)] ++
  s.parameters.members ++
  [("render", encode s.render)]

/-- The scene of the members found for its own fields, with its edge parameters. -/
def ofRecord? (r : Record) (parameters : EdgeParameters) : Option Scene := do
  return {
    name := ← r.required "name"
    camera := ← r.withDefault "camera" {}
    glState := ← r.withDefault "options" .empty
    parameters := parameters
    render := ← r.required "render" }

instance : Codec Scene where
  encode s := .object s.members
  decode source v := do
    let (r, others) ← v.sharedRecord? source fields
    let parameters ← decode .gathered others
    ofRecord? r parameters

end Scene

end RenderPlan
