import RenderPlan.Item
import RenderPlan.Stock.Textures

/-!
# Stock items

The draw calls of the graph view: edges, arrows and points as they are seen, highlighted, selected
and picked, and the passes over the whole canvas. Items that differ little are made from common
parts.

## Main definitions

* `Stock.strokeWidth`, `Stock.pointCulledUniforms`, `Stock.pickingGlState`: the parts shared.
* `Stock.items`.
-/

namespace RenderPlan.Stock

/-- Outline width in pixels. A filled point draws with the negated width. -/
def strokeWidth : Binary32 := 4

/-- Uniforms of one float each. -/
def floats (values : List (String × Binary32)) : UniformTable :=
  .ofList (values.map fun value => (value.1, .float value.2))

/-- Uniforms shared by every pass over culled points. -/
def pointCulledUniforms : UniformTable := floats
  [("fog", 10), ("pointOpacity", 0.8), ("stroke", -strokeWidth), ("zoomScalingFactor", 1),
    ("maxPointSize", 50), ("minPointSize", 8)]

/-- The same for outlines. -/
def pointOutlineUniforms : UniformTable :=
  pointCulledUniforms.overriddenBy (floats [("stroke", strokeWidth)])

/-- Uniforms of an edge pass. -/
def edgeUniforms (opacity opaqueness : Binary32) : UniformTable := floats
  [("edgeOpacity", opacity), ("isOpaque", opaqueness)]

/-- Uniforms of an arrow pass. -/
def arrowUniforms : UniformTable := floats
  [("zoomScalingFactor", 1), ("maxPointSize", 50), ("maxScreenSize", 1), ("maxCanvasSize", 1)]

/-- Uniforms of an arrow pass that fades with its edges. -/
def fadingArrowUniforms : UniformTable := arrowUniforms.insert "edgeOpacity" (.float 1)

/-- Uniforms of a picking pass into a texture of the given scale. -/
def pickingUniforms (scale : Binary32) : UniformTable := floats
  [("zoomScalingFactor", 1), ("textureScalingFactor", scale), ("maxPointSize", 50)]

/-- Clears to transparent white. -/
def clearWhite : GlState := .ofList [("clearColor", [.ofNumbers [1, 1, 1, 0]])]

/-- Blending by source opacity, with opacities added. -/
def blending : List (String × List GlState.Call) :=
  [("blendFuncSeparate", [.ofSymbols ["SRC_ALPHA", "ONE_MINUS_SRC_ALPHA", "ONE", "ONE"]]),
    ("blendEquationSeparate", [.ofSymbols ["FUNC_ADD", "FUNC_ADD"]])]

/-- GL state of passes that write picking indices into an off-canvas target. -/
def pickingGlState : GlState := clearWhite.insertAll blending

/-- An item that starts with no triggers, bindings or state. -/
def plainItem (program : String) (primitive : Primitive) : Item := { program, primitive }

/-- Edges through their middle points. -/
def midEdges (colors : String) (opacity : Binary32) : Item :=
  (plainItem "midedgeculled" .lines)
    |>.onTrigger "renderSceneFull"
    |>.bind "curPos" "midSpringsPos" "curPos"
    |>.bind "edgeColor" colors "midEdgeColor"
    |>.bind "startPos" "midSpringsStarts" "startPos"
    |>.bind "endPos" "midSpringsEnds" "endPos"
    |>.keep "logicalEdges" "logicalEdges" "curIdx"
    |>.keep "edgeSeqLens" "edgeSeqLens" "edgeSeqLen"
    |>.keep "forwardsEdgeToUnsortedEdge" "forwardsEdgeToUnsortedEdge" "forwardsEdgeToUnsortedEdge"
    |>.keep "curMidPoints" "curMidPoints" "curPos"
    |>.keep "edgeColor" "edgeColors" "edgeColor"
    |>.keep "startPos" "midSpringsStarts" "startPos"
    |>.keep "endPos" "midSpringsEnds" "endPos"
    |>.withUniforms (edgeUniforms opacity 0)

/-- Arrows over the models whose names begin with `family`. -/
def arrows (program family colors trigger : String) : Item :=
  (plainItem program .triangles)
    |>.onTrigger trigger
    |>.bind "startPos" (family ++ "StartPos") "curPos"
    |>.bind "endPos" (family ++ "EndPos") "curPos"
    |>.bind "normalDir" (family ++ "NormalDir") "normalDir"
    |>.bind "arrowColor" colors "arrowColor"
    |>.bind "pointSize" (family ++ "PointSizes") "pointSize"

/-- Points over the given models. -/
def points (program positions sizes colors : String) : Item :=
  (plainItem program .points)
    |>.bind "curPos" positions "curPos"
    |>.bind "pointSize" sizes "pointSize"
    |>.bind "pointColor" colors "pointColor"

/-- All points of the graph. -/
def mainPoints : Item := points "pointculled" "curPoints" "pointSizes" "pointColors"

/-- All points, redrawn with the scene. -/
def scenePoints : Item :=
  mainPoints |>.onTrigger "renderSceneFast" |>.onTrigger "renderSceneFull"

/-- All points with their indices for colours, read back from `target`. -/
def pickingPoints (target : String) (scale : Binary32) : Item :=
  (points "points" "curPoints" "pointSizes" "vertexIndices")
    |>.onTrigger "picking"
    |>.withUniforms (pickingUniforms scale)
    |>.withGlState pickingGlState
    |>.renderTo target
    |>.readBack

/-- The steady-state texture over the whole canvas. -/
def fullscreen (program : String) : Item :=
  (plainItem program .triangles)
    |>.bind "vertexPosition" "fullscreenCoordinates" "vertexPosition"
    |>.sample "uSampler" "steadyStateTexture"
    |>.uniform "flipTexture" (.float 1)

/-- Selected edges. -/
def selectedEdges : Item :=
  (plainItem "midedgeculled" .lines)
    |>.onTrigger "highlightDark"
    |>.bind "curPos" "selectedMidSpringsPos" "curPos"
    |>.bind "edgeColor" "selectedMidEdgesColors" "midEdgeColor"
    |>.bind "startPos" "selectedMidSpringsStarts" "startPos"
    |>.bind "endPos" "selectedMidSpringsEnds" "endPos"
    |>.keep "selectedLogicalEdges" "selectedEdgeIndexes" "curIdx"
    |>.withUniforms (edgeUniforms 1 0)

/-- Highlighted edges. -/
def highlightedEdges : Item :=
  (plainItem "edgehighlight" .lines)
    |>.onTrigger "highlight"
    |>.onTrigger "highlightDark"
    |>.bind "curPos" "highlightedEdgesPos" "curPos"
    |>.gl "depthFunc" [.ofSymbols ["LESS"]]

/-- All edges with their indices for colours, read back from the picking target. -/
def pickingEdges : Item :=
  (plainItem "midedgeculled" .lines)
    |>.onTrigger "picking"
    |>.bind "curPos" "midSpringsPos" "curPos"
    |>.bind "startPos" "midSpringsStarts" "startPos"
    |>.bind "endPos" "midSpringsEnds" "endPos"
    |>.bind "edgeColor" "edgeIndices" "edgeColor"
    |>.withUniforms (edgeUniforms 1 1)
    |>.withGlState pickingGlState
    |>.renderTo "hitmap"
    |>.readBack

/-- Selected points. -/
def selectedPoints : Item :=
  (points "pointculled" "selectedCurPoints" "selectedPointSizes" "selectedPointColors")
    |>.onTrigger "highlightDark"
    |>.keep "selectedLogicalPoints" "selectedPointIndexes" "curIdx"
    |>.withUniforms pointCulledUniforms

/-- Highlighted points, with the indices of the edges that meet at them. -/
def highlightedPoints : Item :=
  (points "pointhighlight" "highlightedPointsPos" "highlightedPointsSizes"
      "highlightedPointsColors")
    |>.onTrigger "highlight"
    |>.onTrigger "highlightDark"
    |>.keep "forwardsEdgeStartEndIdxs" "forwardsEdgeStartEndIdxs" "curIdx"
    |>.keep "backwardsEdgeStartEndIdxs" "backwardsEdgeStartEndIdxs" "curIdx"
    |>.withUniforms pointCulledUniforms

/-- The items that draw edges. -/
def edgeItems : List (String × Item) :=
  [("uberdemoedges", midEdges "midEdgesColors" 0.2),
    ("midedgeculled", midEdges "midEdgesColors" 1),
    ("edgeselected", selectedEdges),
    ("edgehighlight", highlightedEdges),
    ("edgepicking", pickingEdges)]

/-- The items that draw arrows. -/
def arrowItems : List (String × Item) :=
  [("arrowculled",
      (arrows "arrow" "arrow" "arrowColors" "renderSceneFull").withUniforms fadingArrowUniforms),
    ("arrowselected",
      (arrows "arrow" "selectedArrow" "selectedArrowColors" "highlightDark").withUniforms
        fadingArrowUniforms),
    ("arrowhighlight",
      (arrows "arrowhighlight" "highlightedArrow" "highlightedArrowPointColors" "highlight")
        |>.onTrigger "highlightDark"
        |>.withUniforms arrowUniforms)]

/-- The items that draw points. -/
def pointItems : List (String × Item) :=
  [("pointculled", scenePoints.withUniforms pointCulledUniforms),
    ("pointselected", selectedPoints),
    ("pointhighlight", highlightedPoints),
    ("uberpointculled",
      scenePoints.withUniforms
        (pointCulledUniforms.overriddenBy (floats [("pointOpacity", 0.4)]))),
    ("pointculledtexture",
      mainPoints
        |>.onTrigger "marquee"
        |>.withUniforms pointCulledUniforms
        |>.withGlState clearWhite
        |>.renderTo "pointTexture"
        |>.readBack),
    ("pointoutline", mainPoints.onTrigger "renderSceneFull" |>.withUniforms pointOutlineUniforms),
    ("pointoutlinetexture",
      mainPoints
        |>.onTrigger "marquee"
        |>.withUniforms pointOutlineUniforms
        |>.withGlState clearWhite
        |>.renderTo "pointTexture"),
    ("pointpicking", pickingPoints "hitmap" hitmapScale),
    ("pointsampling", pickingPoints "pointHitmapDownsampled" hitmapDownsampledScale),
    ("midpoints",
      (plainItem "midpoints" .points)
        |>.onTrigger "renderSceneFast"
        |>.onTrigger "renderSceneFull"
        |>.bind "curPos" "curMidPoints" "curPos")]

/-- The items over the whole canvas. The last is drawn on no trigger; it is there to have the
steady-state texture allocated. -/
def canvasItems : List (String × Item) :=
  [("fullscreen", (fullscreen "fullscreen").onTrigger "highlight"),
    ("fullscreenDark", (fullscreen "fullscreenDark").onTrigger "highlightDark"),
    ("fullscreenDummy", (fullscreen "fullscreen").renderTo "steadyStateTexture" |>.readBack)]

/-- The stock items. -/
def items : NameTable Item := .ofList (edgeItems ++ arrowItems ++ pointItems ++ canvasItems)

end RenderPlan.Stock
