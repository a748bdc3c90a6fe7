import RenderPlan.Plan
import RenderPlan.Plan.Resolution

/-!
# Compiling scenes

A scene is compiled by resolving the items of its render list in order and adding each to a plan
that starts out blank. Nothing is returned unless every item resolves.

## Main definitions

* `Plan.blank`: the plan of a scene before any item is drawn.
* `Plan.add`: a plan with one more item drawn.
* `Scene.compile`.
-/

namespace RenderPlan

namespace Plan

/-- The plan of a scene that draws nothing. Every trigger has its list, if an empty one. -/
def blank (s : Scene) (index : TriggerIndex) : Plan where
  scene := s.name
  camera := s.camera
  glState := s.glState
  parameters := s.parameters
  draws := []
  programs := .empty
  textures := .empty
  models := .empty
  uniforms := .empty
  triggers := index.sets.map fun _ => []
  indexLookups := {}
  targets := .empty
  requiredModels := .empty
  serverBuffers := .empty
  serverTextures := .empty

/-- Notes that the plan uses a texture. -/
def addTexture (p : Plan) (name : String) (texture : Texture) : Plan :=
  { p with
    textures := p.textures.insertNew name texture
    serverTextures :=
      if texture.isServer then p.serverTextures.insert name else p.serverTextures }

/-- Notes that the plan uses a buffer: what to prepare for it depends on its origin. -/
def addBuffer (p : Plan) (ref : AttributeRef) (buffer : Buffer) : Plan :=
  { p with
    indexLookups :=
      match buffer.origin.indexLookup? with
      | some lookup => p.indexLookups.insert lookup
      | none => p.indexLookups
    serverBuffers :=
      if buffer.origin.isServer then p.serverBuffers.insert ref.model else p.serverBuffers
    requiredModels := p.requiredModels.insert ref.model
    models := p.models.update ref.model fun model =>
      (model.getD .empty).insertNew ref.name buffer }

/-- Notes that the plan draws into a texture, which is read back when any draw asks for it. -/
def addTarget (p : Plan) (name : String) (texture : Texture) (readBack : Bool) : Plan :=
  { p with
    targets := p.targets.update name fun target =>
      match target with
      | none => ⟨texture, readBack⟩
      | some target => { target with readBack := target.readBack || readBack } }

/-- The list with the name at its end, unless it holds the name. -/
def appendOnce (names : List String) (name : String) : List String :=
  if names.contains name then names else names ++ [name]

/-- Enters an item in the list of every trigger that redraws it. -/
def addToTriggers (p : Plan) (index : TriggerIndex) (item : String) : Plan :=
  { p with
    triggers := (index.triggersOf item).foldl
      (fun triggers trigger => triggers.update trigger fun items =>
        appendOnce (items.getD []) item)
      p.triggers }

/-- Appends the draw call of an item, with its GL state composed over the scene's. -/
def addDraw (p : Plan) (name : String) (item : Item) : Plan :=
  { p with
    draws := p.draws ++ [⟨name, item, p.glState.overriddenBy item.glState⟩]
    uniforms := p.uniforms.insert name item.uniforms }

/-- Notes that the plan draws with a program. -/
def addProgram (p : Plan) (name : String) (program : Program) : Plan :=
  { p with programs := p.programs.insertNew name program }

/-- Notes an off-canvas target, which is both a texture in use and drawn into. -/
def addTarget? (p : Plan) (target : Option (String × Texture)) (readBack : Bool) : Plan :=
  match target with
  | none => p
  | some (name, texture) => (p.addTexture name texture).addTarget name texture readBack

/-- The plan with one more item drawn. -/
def add (index : TriggerIndex) (p : Plan) (r : ResolvedItem) : Plan :=
  let p := p.addProgram r.item.program r.program
  let p := r.samples.foldl (fun p sample => p.addTexture sample.1 sample.2) p
  let p := r.buffers.foldl (fun p buffer => p.addBuffer buffer.1 buffer.2) p
  let p := p.addTarget? r.target r.item.readsTarget
  (p.addToTriggers index r.name).addDraw r.name r.item

end Plan

namespace Scene

/-- The items of the render list, resolved in order, or the first broken reference. -/
def resolve (s : Scene) (c : Catalogs) : Except CompileError (List ResolvedItem) :=
  s.render.mapM fun name =>
    (c.resolve name).mapError fun missing => ⟨s.name, name, missing⟩

/-- The plan of a scene, or its first broken reference. -/
def compile (s : Scene) (c : Catalogs) (index : TriggerIndex) : Except CompileError Plan :=
  (s.resolve c).map fun items => items.foldl (Plan.add index) (Plan.blank s index)

end Scene

end RenderPlan
