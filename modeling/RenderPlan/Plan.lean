import RenderPlan.Catalogs
import RenderPlan.Scene
import RenderPlan.TriggerIndex

/-!
# Plans

A plan is what a renderer needs to know of one scene: the draws in order, the declarations they
use, the resources to prepare and fetch, and the trigger index restricted to the scene. It holds
every declaration it was made from, so that drawing consults nothing else.

## Main definitions

* `Plan.Draw`, `Plan.Target`, `Plan`.
* `Plan.itemsOnTrigger`, `Plan.drawsOnTrigger`, `Plan.untriggeredItems`, `Plan.readBackTargets`: the
  queries of a render loop.
-/

namespace RenderPlan

/-- One draw call: an item with its GL state composed over the scene's. -/
structure Plan.Draw where
  name : String
  item : Item
  glState : GlState
deriving DecidableEq, BEq

/-- An off-canvas texture to allocate before drawing. -/
structure Plan.Target where
  texture : Texture
  /-- Some item has the target read back. -/
  readBack : Bool
deriving DecidableEq, BEq

/-- The index look-ups that a scene calls for. -/
structure IndexLookups where
  vertex : Bool := false
  edge : Bool := false
deriving DecidableEq

namespace IndexLookups

/-- The look-up is called for. -/
def contains (l : IndexLookups) : IndexLookup → Bool
  | .vertex => l.vertex
  | .edge => l.edge

/-- Calls for a look-up. -/
def insert (l : IndexLookups) : IndexLookup → IndexLookups
  | .vertex => { l with vertex := true }
  | .edge => { l with edge := true }

/-- The look-ups called for, in the order of their numbers. -/
def toList (l : IndexLookups) : List IndexLookup := [.vertex, .edge].filter l.contains

end IndexLookups

/-- What a renderer needs to know of a scene. -/
structure Plan where
  scene : String
  camera : Camera
  glState : GlState
  parameters : EdgeParameters
  /-- The draw calls, in order. -/
  draws : List Plan.Draw
  /-- The programs that draw. -/
  programs : NameTable Program
  /-- The textures sampled or drawn into. -/
  textures : NameTable Texture
  /-- The attributes used, by model. -/
  models : NameTable Model
  /-- The uniforms that each item starts from. -/
  uniforms : NameTable UniformTable
  /-- The items of the scene redrawn on each trigger, in draw order. -/
  triggers : NameTable (List String)
  indexLookups : IndexLookups
  /-- The off-canvas textures drawn into. -/
  targets : NameTable Plan.Target
  requiredModels : NameSet
  /-- Models with a buffer to fetch from the server. -/
  serverBuffers : NameSet
  /-- Textures to fetch from the server. -/
  serverTextures : NameSet
deriving DecidableEq, BEq

namespace Plan

/-- The names of the items, in draw order. -/
def itemOrder (p : Plan) : List String := p.draws.map Draw.name

/-- The first draw of an item. -/
def draw? (p : Plan) (item : String) : Option Draw := p.draws.find? fun draw => draw.name == item

/-- The GL state in force when an item is drawn. -/
def glStateOf? (p : Plan) (item : String) : Option GlState := (p.draw? item).map Draw.glState

/-- The items that no trigger of the scene redraws, in draw order. -/
def untriggeredItems (p : Plan) : List String :=
  p.itemOrder.filter fun item => !p.triggers.values.any fun items => items.contains item

/-- The items redrawn on a trigger, each once; none, if the scene does not know the trigger. -/
def itemsOnTrigger (p : Plan) (trigger : String) : List String :=
  (p.triggers.get? trigger).getD []

/-- The draws made on a trigger, in draw order. -/
def drawsOnTrigger (p : Plan) (trigger : String) : List Draw :=
  p.draws.filter fun draw => (p.itemsOnTrigger trigger).contains draw.name

/-- The targets that some item has read back. -/
def readBackTargets (p : Plan) : List (String × Target) :=
  p.targets.entries.filter fun target => target.2.readBack

end Plan

end RenderPlan
