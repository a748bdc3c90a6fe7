import RenderPlan.GlState
import RenderPlan.Number.Rounding

/-!
# Scenes

A scene names the items to draw, in order, with the camera, the GL state that holds before any
item's own, and the numbers that the edge shaders take.

## Main definitions

* `Camera`, `EdgeParameters`, `Scene`.
-/

namespace RenderPlan

/-- Flat or spatial projection. -/
inductive Camera.Projection where
  | flat
  | spatial
deriving DecidableEq

/-- The visible region in world units. -/
structure Camera.Bounds where
  top : Binary32
  left : Binary32
  bottom : Binary32
  right : Binary32
deriving DecidableEq, BEq

/-- The camera of a scene; unless told otherwise, a flat view of the unit square. -/
structure Camera where
  projection : Camera.Projection := .flat
  bounds : Camera.Bounds := ⟨-1, 0, 0, 1⟩
  nearPlane : Binary32 := -1
  farPlane : Binary32 := 10
deriving DecidableEq, BEq

/-- Numbers of a scene that the edge shaders take. -/
structure EdgeParameters where
  /-- Segments that each curved edge is split into; absent, edges stay whole. -/
  renderedSplits : Option UInt32 := none
  /-- Points in the middle of edges are interpolated by the client instead of the server. -/
  clientMidEdgeInterpolation : Bool := false
  /-- Height of curved edges relative to their length. -/
  arcHeight : Option Binary32 := none
deriving DecidableEq, BEq

/-- A scene: what to draw, in order, and what holds for all of it. -/
structure Scene where
  name : String
  camera : Camera := {}
  /-- The GL state under the items' own. -/
  glState : GlState := .empty
  parameters : EdgeParameters := {}
  /-- Names of the items, in the order of their draw calls. -/
  render : List String := []
deriving DecidableEq, BEq

end RenderPlan
