import RenderPlan.Plan
import RenderPlan.Schema.Resources
import RenderPlan.Schema.Scenes

/-!
# The JSON form of plans

Plans are written for inspection and not read back. Sets are written as lists in ascending order,
and a target carries its name.
-/

namespace RenderPlan

namespace Plan

open Json (Value encode)

/-- The tree of a draw. -/
def Draw.encode (d : Draw) : Value := .object
  [("name", Json.encode d.name), ("spec", Json.encode d.item),
    ("gl_options", Json.encode d.glState)]

/-- The tree of a target. -/
def Target.encode (name : String) (t : Target) : Value := .object
  [("name", Json.encode name), ("texture", Json.encode t.texture),
    ("read_back", Json.encode t.readBack)]

/-- The trees of the targets, in the order of their names. -/
def encodeTargets (p : Plan) : Value :=
  .array (p.targets.entries.map fun entry => entry.2.encode entry.1)

/-- The tree of a plan. -/
def encode (p : Plan) : Value := .object
  [("scene", Json.encode p.scene), ("camera", Json.encode p.camera),
    ("options", Json.encode p.glState), ("params", Json.encode p.parameters),
    ("items", .array (p.draws.map Draw.encode)), ("programs", Json.encode p.programs),
    ("textures", Json.encode p.textures), ("models", Json.encode p.models),
    ("uniforms", Json.encode p.uniforms), ("triggers", Json.encode p.triggers),
    ("draw_modes", Json.encode p.indexLookups.toList), ("targets", p.encodeTargets),
    ("required_models", Json.encode p.requiredModels),
    ("server_buffers", Json.encode p.serverBuffers),
    ("server_textures", Json.encode p.serverTextures)]

end Plan

end RenderPlan
