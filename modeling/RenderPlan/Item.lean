import RenderPlan.GlState
import RenderPlan.Names.Set
import RenderPlan.Uniform

/-!
# Items

An item declares one draw call: the program that draws, the buffers bound to its slots, the uniforms
and GL state it starts from, where it draws, and the triggers on which it is redrawn.

## Main definitions

* `AttributeRef`, `RenderTarget`, `Item`.
* `Item.bufferRefs`: every buffer that an item refers to.
* `Item.bind`, `Item.renderTo` and the other builders.
-/

namespace RenderPlan

/-- A reference to the attribute `name` of a model. -/
structure AttributeRef where
  model : String
  name : String
deriving DecidableEq

/-- Where an item draws. -/
inductive RenderTarget where
  /-- The visible framebuffer. -/
  | canvas
  /-- An off-canvas texture. -/
  | texture (name : String)
deriving DecidableEq

namespace RenderTarget

/-- The word that stands for the visible framebuffer where targets are written by name. -/
def canvasWord : String := "CANVAS"

/-- The target written as `name`. -/
def ofName (name : String) : RenderTarget := if name = canvasWord then .canvas else .texture name

/-- The name that a target is written as. -/
def name : RenderTarget → String
  | .canvas => canvasWord
  | .texture name => name

/-- The texture drawn into, for targets off the canvas. -/
def texture? : RenderTarget → Option String
  | .canvas => none
  | .texture name => some name

end RenderTarget

/-- What a referenced buffer is for. -/
inductive BufferRole where
  /-- Bound to an attribute slot of the program. -/
  | drawn
  /-- Kept alive for bookkeeping, not bound. -/
  | kept
deriving DecidableEq

/-- The declaration of one draw call. -/
structure Item where
  program : String
  triggers : NameSet := .empty
  /-- The buffer bound to each attribute slot. -/
  bindings : NameTable AttributeRef := .empty
  /-- Buffers kept alive for bookkeeping. -/
  otherBuffers : NameTable AttributeRef := .empty
  uniforms : UniformTable := .empty
  /-- The texture bound to each sampler. -/
  textureBindings : NameTable String := .empty
  primitive : Primitive
  glState : GlState := .empty
  target : Option RenderTarget := none
  /-- The client reads the target back after drawing. -/
  readsTarget : Bool := false
deriving DecidableEq, BEq

namespace Item

/-- The off-canvas texture drawn into, if any. -/
def targetTexture? (i : Item) : Option String := i.target.bind RenderTarget.texture?

/-- Every buffer referred to, with its role and slot: first those drawn, then those kept, each in
the order of the slots. -/
def bufferRefs (i : Item) : List (BufferRole × String × AttributeRef) :=
  i.bindings.entries.map (fun entry => (.drawn, entry.1, entry.2)) ++
    i.otherBuffers.entries.map (fun entry => (.kept, entry.1, entry.2))

/-- Redraws the item on a trigger. -/
def onTrigger (i : Item) (trigger : String) : Item :=
  { i with triggers := i.triggers.insert trigger }

/-- Binds a buffer to an attribute slot. -/
def bind (i : Item) (slot model name : String) : Item :=
  { i with bindings := i.bindings.insert slot ⟨model, name⟩ }

/-- Keeps a buffer alive under a slot name. -/
def keep (i : Item) (slot model name : String) : Item :=
  { i with otherBuffers := i.otherBuffers.insert slot ⟨model, name⟩ }

/-- Declares a uniform. -/
def uniform (i : Item) (name : String) (u : Uniform) : Item :=
  { i with uniforms := i.uniforms.insert name u }

/-- Declares all uniforms at once, in place of those declared before. -/
def withUniforms (i : Item) (uniforms : UniformTable) : Item := { i with uniforms }

/-- Binds a texture to a sampler. -/
def sample (i : Item) (sampler texture : String) : Item :=
  { i with textureBindings := i.textureBindings.insert sampler texture }

/-- Sets the calls of one state function. -/
def gl (i : Item) (name : String) (calls : List GlState.Call) : Item :=
  { i with glState := i.glState.insert name calls }

/-- Sets the whole GL state, in place of what was set before. -/
def withGlState (i : Item) (glState : GlState) : Item := { i with glState }

/-- Draws into an off-canvas texture; here every name is a texture's. -/
def renderTo (i : Item) (texture : String) : Item := { i with target := some (.texture texture) }

/-- Draws into the visible framebuffer. -/
def renderToCanvas (i : Item) : Item := { i with target := some .canvas }

/-- Has the target read back after drawing. -/
def readBack (i : Item) : Item := { i with readsTarget := true }

end Item

end RenderPlan
