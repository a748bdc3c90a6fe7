import RenderPlan.Plan.Compile
import RenderPlan.Residency
import RenderPlan.UniformStore

/-!
# Frames

A frame of a plan makes every off-canvas target ready, draws what can be drawn, and reads back the
targets that the drawn items ask for. An item is deferred while something that it needs from the
server has not arrived. The renderer may fail at any call, which ends the frame.

## Main definitions

* `Renderer`: the backend that takes the calls, in any monad.
* `Plan.isDrawable`: everything that a draw needs from the server is there.
* `Plan.drawOnTrigger`, `Plan.drawAll`: the frames, reporting what was done.
-/

namespace RenderPlan

/-- The backend of a frame. -/
structure Renderer (m : Type → Type) where
  /-- Allocates a target unless it exists. -/
  ensureTarget : String → Plan.Target → m Unit
  /-- Issues a draw call with the current uniform values. -/
  draw : Plan → Plan.Draw → UniformStore → m Unit
  /-- Copies the pixels of a target to the client. -/
  readBack : String → Plan.Target → m Unit

namespace Renderer

/-- The renderer with read-back calls ignored, for backends that never copy pixels. -/
def ignoringReadBack {m : Type → Type} [Monad m] (r : Renderer m) : Renderer m :=
  { r with readBack := fun _ _ => pure () }

end Renderer

/-- What a frame did. -/
structure FrameReport where
  /-- The trigger of the frame; absent when everything was drawn. -/
  trigger : Option String := none
  drawn : List String := []
  /-- Items passed over because something had not arrived. -/
  deferred : List String := []
  readBack : List String := []
deriving DecidableEq

namespace FrameReport

/-- Nothing was deferred. -/
def isComplete (r : FrameReport) : Bool := r.deferred.isEmpty

/-- Notes a deferred draw. -/
def postpone (r : FrameReport) (d : Plan.Draw) : FrameReport :=
  { r with deferred := r.deferred ++ [d.name] }

/-- Notes a draw; its target is to be read back, once, if the item asks for it. -/
def drew (r : FrameReport) (d : Plan.Draw) : FrameReport :=
  { r with
    drawn := r.drawn ++ [d.name]
    readBack :=
      match d.item.targetTexture? with
      | some target =>
        if d.item.readsTarget then Plan.appendOnce r.readBack target else r.readBack
      | none => r.readBack }

end FrameReport

namespace Plan

variable {m : Type → Type} [Monad m]

/-- A texture of the plan needs no fetching or has arrived. -/
def textureReady (p : Plan) (r : Residency) (texture : String) : Bool :=
  !(p.textures.get? texture).any Texture.isServer || r.textures.resident.contains texture

/-- A buffer of the plan needs no fetching or its model has arrived. -/
def bufferReady (p : Plan) (r : Residency) (ref : AttributeRef) : Bool :=
  let buffer := (p.models.get? ref.model).bind fun model => model.get? ref.name
  !buffer.any (fun buffer => buffer.origin.isServer) || r.buffers.resident.contains ref.model

/-- The textures that a draw samples. -/
def sampledBy (p : Plan) (d : Draw) : List String :=
  match p.programs.get? d.item.program with
  | none => []
  | some program => d.item.sampledTextures program

/-- Everything that a draw needs from the server is there: its buffers, the textures it samples,
and the texture it draws into. -/
def isDrawable (p : Plan) (d : Draw) (r : Residency) : Bool :=
  d.item.attributeRefs.all (p.bufferReady r) && (p.sampledBy d).all (p.textureReady r) &&
    d.item.targetTexture?.all (p.textureReady r)

/-- Draws or defers each draw in order. -/
def drawEach (p : Plan) (renderer : Renderer m) (store : UniformStore) (r : Residency) :
    List Draw → FrameReport → m FrameReport
  | [], report => pure report
  | d :: rest, report =>
    if p.isDrawable d r then do
      renderer.draw p d store
      drawEach p renderer store r rest (report.drew d)
    else drawEach p renderer store r rest (report.postpone d)

/-- A frame of the given draws: targets first, then draws, then read-backs. -/
def frame (p : Plan) (renderer : Renderer m) (store : UniformStore) (r : Residency)
    (draws : List Draw) (report : FrameReport) : m FrameReport := do
  p.targets.entries.forM fun target => renderer.ensureTarget target.1 target.2
  let report ← p.drawEach renderer store r draws report
  report.readBack.forM fun name =>
    match p.targets.get? name with
    | none => pure ()
    | some target => renderer.readBack name target
  return report

/-- The frame of a trigger. A trigger that the scene does not know draws nothing. -/
def drawOnTrigger (p : Plan) (trigger : String) (renderer : Renderer m) (store : UniformStore)
    (r : Residency) : m FrameReport :=
  p.frame renderer store r (p.drawsOnTrigger trigger) { trigger := some trigger }

/-- The frame of every draw, triggered or not. -/
def drawAll (p : Plan) (renderer : Renderer m) (store : UniformStore) (r : Residency) :
    m FrameReport :=
  p.frame renderer store r p.draws {}

/-- The store that a render loop of this plan starts with. -/
def newStore (p : Plan) : UniformStore := .ofDefaults p.uniforms

end Plan

end RenderPlan
