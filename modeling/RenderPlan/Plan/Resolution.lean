import RenderPlan.Catalogs

/-!
# Resolving items

An item refers to its program, its textures, its buffers and its target by name. Resolving it
follows every reference into the catalogs and stops at the first that leads nowhere: the item
itself, then its program, the textures in the order of their samplers, the buffers in the order of
their slots, and the target. A texture bound to a sampler that the program does not declare is not
a reference.

## Main definitions

* `CompileError`: a broken reference, with the scene and the item it was met in.
* `ResolvedItem`, `Catalogs.resolve`.

## Main results

* `found_eq_ok_iff`: a look-up succeeds when there is something to find.
-/

namespace RenderPlan

/-- A name that leads nowhere. -/
inductive CompileError.Missing where
  | item
  | program (name : String)
  | buffer (ref : AttributeRef)
  | texture (name : String)
  | target (name : String)
deriving DecidableEq

/-- A broken reference of a scene, with the item it was met in. -/
structure CompileError where
  scene : String
  item : String
  missing : CompileError.Missing
deriving DecidableEq

namespace CompileError

/-- The name that could not be found. -/
def missingName (e : CompileError) : String :=
  match e.missing with
  | .item => e.item
  | .program name | .texture name | .target name => name
  | .buffer ref => ref.model ++ "." ++ ref.name

/-- What the item does with the missing name. -/
def complaint (e : CompileError) : String :=
  let missing := "`" ++ e.missingName ++ "`"
  let item := "item `" ++ e.item ++ "` "
  match e.missing with
  | .item => "unknown item " ++ missing
  | .program _ => item ++ "uses unknown program " ++ missing
  | .buffer _ => item ++ "binds unknown attribute " ++ missing
  | .texture _ => item ++ "samples unknown texture " ++ missing
  | .target _ => item ++ "renders to unknown target " ++ missing

/-- The wording of the error. -/
def message (e : CompileError) : String := "scene `" ++ e.scene ++ "`: " ++ e.complaint

end CompileError

/-- An item with every reference followed. -/
structure ResolvedItem where
  name : String
  item : Item
  program : Program
  /-- The textures bound to declared samplers, in the order of the samplers. -/
  samples : List (String × Texture)
  /-- The buffers referred to, first those drawn and then those kept. -/
  buffers : List (AttributeRef × Buffer)
  /-- The off-canvas texture drawn into. -/
  target : Option (String × Texture)

/-- What a look-up found, or what was missing. -/
def found {α ε : Type} (missing : ε) : Option α → Except ε α
  | none => .error missing
  | some a => .ok a

theorem found_eq_ok_iff {α ε : Type} {missing : ε} {o : Option α} {a : α} :
    found missing o = .ok a ↔ o = some a := by
  cases o <;> simp [found]

theorem found_eq_error_iff {α ε : Type} {missing e : ε} {o : Option α} :
    found missing o = .error e ↔ o = none ∧ missing = e := by
  cases o <;> simp [found]

namespace Item

/-- The textures bound to samplers that the program declares, in the order of the samplers. -/
def sampledTextures (i : Item) (program : Program) : List String :=
  (i.textureBindings.filter fun sampler _ => program.hasSampler sampler).values

/-- The attributes referred to, first those drawn and then those kept. -/
def attributeRefs (i : Item) : List AttributeRef := i.bufferRefs.map fun ref => ref.2.2

end Item

namespace Catalogs

/-- The texture of the given name. -/
def findTexture (c : Catalogs) (missing : String → CompileError.Missing) (name : String) :
    Except CompileError.Missing (String × Texture) :=
  (found (missing name) (c.textures.get? name)).map fun texture => (name, texture)

/-- The buffer that a reference points at. -/
def findBuffer (c : Catalogs) (ref : AttributeRef) :
    Except CompileError.Missing (AttributeRef × Buffer) :=
  (found (.buffer ref) (c.buffer? ref)).map fun buffer => (ref, buffer)

/-- The item of the given name with every reference followed, or the first that is broken. -/
def resolve (c : Catalogs) (name : String) : Except CompileError.Missing ResolvedItem := do
  let item ← found .item (c.items.get? name)
  let program ← found (.program item.program) (c.programs.get? item.program)
  let samples ← (item.sampledTextures program).mapM (c.findTexture .texture)
  let buffers ← item.attributeRefs.mapM c.findBuffer
  let target ← item.targetTexture?.mapM (c.findTexture .target)
  return { name, item, program, samples, buffers, target }

end Catalogs

end RenderPlan
