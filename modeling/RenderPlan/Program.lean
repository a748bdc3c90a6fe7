/-!
# Shader programs

A program declares the attribute slots and the texture samplers that items may bind.
-/

namespace RenderPlan

/-- The slots that a shader program declares. -/
structure Program where
  attributes : List String := []
  samplers : List String := []
deriving DecidableEq

namespace Program

/-- The program declares the attribute slot. -/
def hasAttribute (p : Program) (name : String) : Bool := p.attributes.contains name

/-- The program declares the sampler. -/
def hasSampler (p : Program) (name : String) : Bool := p.samplers.contains name

end Program

end RenderPlan
