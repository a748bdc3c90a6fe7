import RenderPlan.Texture
import RenderPlan.Names.Table

/-!
# Stock textures

The off-canvas targets of the graph view. All are rendered by the client.
-/

namespace RenderPlan.Stock

/-- The picking target is a quarter of the canvas size. -/
def hitmapScale : Binary32 := 0.25

/-- The coarse picking target is sampled when an area is selected. -/
def hitmapDownsampledScale : Binary32 := 0.1

/-- The stock textures. -/
def textures : NameTable Texture := .ofList
  [("hitmap", ⟨.client, hitmapScale⟩),
    ("pointHitmapDownsampled", ⟨.client, hitmapDownsampledScale⟩),
    ("pointTexture", ⟨.client, 1⟩),
    ("steadyStateTexture", ⟨.client, 1⟩)]

end RenderPlan.Stock
