import RenderPlan.Frame

/-!
# Traces of frames

A tracing renderer notes the calls that it takes, so that what a frame asked for can be looked at
afterwards. Any call may be made to fail; a failed call is not noted and ends the frame.

## Main definitions

* `RenderCall`: one call of a renderer.
* `Renderer.tracing`: the renderer that notes its calls.
* `Tracing.trace`: the calls that a frame made, and how it ended.
-/

namespace RenderPlan

/-- One call of a renderer. -/
inductive RenderCall where
  | ensureTarget (name : String)
  /-- The draw of an item with the bytes uploaded for its uniforms. -/
  | draw (item : String) (uploads : List (String × List UInt8))
  | readBack (name : String)
deriving DecidableEq

/-- The device no longer takes calls. -/
inductive DeviceLost where
  | deviceLost
deriving DecidableEq

namespace DeviceLost

/-- The wording of the failure. -/
def message (_ : DeviceLost) : String := "device lost"

end DeviceLost

/-- Computations that note calls and may lose the device. -/
abbrev Tracing : Type → Type := ExceptT DeviceLost (StateM (List RenderCall))

namespace Tracing

/-- Takes a call, unless it fails after the calls before it. -/
def take (fails : List RenderCall → RenderCall → Bool) (call : RenderCall) : Tracing Unit := do
  let calls ← get
  if fails calls call then throw .deviceLost
  set (calls ++ [call])

/-- How a computation ended, and the calls it made. -/
def trace {α : Type} (x : Tracing α) : Except DeviceLost α × List RenderCall := x.run.run []

end Tracing

namespace Renderer

/-- The renderer that notes its calls and fails as told. -/
def tracing (fails : List RenderCall → RenderCall → Bool) : Renderer Tracing where
  ensureTarget name _ := Tracing.take fails (.ensureTarget name)
  draw _ d store := Tracing.take fails (.draw d.name (store.uploads d.name))
  readBack name _ := Tracing.take fails (.readBack name)

end Renderer

end RenderPlan
