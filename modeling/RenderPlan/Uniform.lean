import RenderPlan.Layers
import RenderPlan.Number.Binary

/-!
# Uniforms

A uniform declaration gives the shape in which the shader layer sets the uniform and the values it
starts with. The number of start values is not tied to the shape: a catalog may declare too few or
too many.

## Main definitions

* `Uniform.Shape`, with `components` and `isInteger`.
* `Uniform`, `UniformTable`.
-/

namespace RenderPlan

/-- The shape of a uniform, as its setter takes it. -/
inductive Uniform.Shape where
  | float1
  | float2
  | float3
  | float4
  | int1
  | int2
  | matrix4
deriving DecidableEq

namespace Uniform.Shape

/-- Number of scalar values that a uniform of this shape holds. -/
def components : Shape → Nat
  | .float1 | .int1 => 1
  | .float2 | .int2 => 2
  | .float3 => 3
  | .float4 => 4
  | .matrix4 => 16

/-- The values are uploaded as integers. -/
def isInteger : Shape → Bool
  | .int1 | .int2 => true
  | _ => false

end Uniform.Shape

/-- The declared shape and start values of a uniform. -/
structure Uniform where
  shape : Uniform.Shape
  defaults : List Binary32
deriving DecidableEq, BEq

/-- Uniform declarations by name. -/
abbrev UniformTable : Type := NameTable Uniform

namespace Uniform

/-- A uniform of one float. -/
def float (value : Binary32) : Uniform := ⟨.float1, [value]⟩

end Uniform

end RenderPlan
