import RenderPlan.Program
import RenderPlan.Names.Table

/-!
# Stock programs

The shader programs of the graph view.
-/

namespace RenderPlan.Stock

/-- What an arrow program takes. -/
def arrowAttributes : List String :=
  ["startPos", "endPos", "normalDir", "arrowColor", "pointSize"]

/-- What a point program takes. -/
def pointAttributes : List String := ["curPos", "pointSize", "pointColor"]

/-- A program over the whole canvas, sampling one texture. -/
def fullscreenProgram : Program := ⟨["vertexPosition"], ["uSampler"]⟩

/-- The stock programs. -/
def programs : NameTable Program := .ofList
  [("midedgeculled", ⟨["curPos", "edgeColor", "startPos", "endPos"], []⟩),
    ("edgehighlight", ⟨["curPos"], []⟩),
    ("arrow", ⟨arrowAttributes, []⟩),
    ("arrowhighlight", ⟨arrowAttributes, []⟩),
    ("pointculled", ⟨pointAttributes, []⟩),
    ("pointhighlight", ⟨pointAttributes, []⟩),
    ("points", ⟨pointAttributes, []⟩),
    ("midpoints", ⟨["curPos"], []⟩),
    ("fullscreen", fullscreenProgram),
    ("fullscreenDark", fullscreenProgram)]

end RenderPlan.Stock
