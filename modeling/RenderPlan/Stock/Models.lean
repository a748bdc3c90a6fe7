import RenderPlan.Buffer

/-!
# Stock models

The attribute buffers of the graph view, one row each: positions and colours of points, edges and
arrows, their selected and highlighted parts, and the corners of the canvas.
-/

namespace RenderPlan.Stock

/-- A point of the plane. -/
def position : ElementLayout := ⟨.float, 2, false⟩

/-- A colour with its opacity, four bytes taken as fractions. -/
def color : ElementLayout := ⟨.unsignedByte, 4, true⟩

/-- A size in pixels. -/
def size : ElementLayout := ⟨.unsignedByte, 1, false⟩

/-- An index. -/
def index : ElementLayout := ⟨.unsignedInt, 1, false⟩

/-- Two indices. -/
def indexPair : ElementLayout := ⟨.unsignedInt, 2, false⟩

/-- One attribute of a model. -/
structure BufferRow where
  model : String
  name : String
  origin : Buffer.Origin
  layout : ElementLayout

/-- The buffers of points. -/
def pointBuffers : List BufferRow :=
  [⟨"curPoints", "curPos", .serverDevice, position⟩,
    ⟨"pointSizes", "pointSize", .serverHost, size⟩,
    ⟨"pointColors", "pointColor", .serverHost, color⟩,
    ⟨"vertexIndices", "pointColor", .vertexIndex, color⟩,
    ⟨"selectedCurPoints", "curPos", .localStatic, position⟩,
    ⟨"selectedPointSizes", "pointSize", .localStatic, size⟩,
    ⟨"selectedPointColors", "pointColor", .localStatic, color⟩,
    ⟨"selectedPointIndexes", "curIdx", .localStatic, index⟩,
    ⟨"highlightedPointsPos", "curPos", .localStatic, position⟩,
    ⟨"highlightedPointsSizes", "pointSize", .localStatic, size⟩,
    ⟨"highlightedPointsColors", "pointColor", .localStatic, color⟩,
    ⟨"forwardsEdgeStartEndIdxs", "curIdx", .serverHost, indexPair⟩,
    ⟨"backwardsEdgeStartEndIdxs", "curIdx", .serverHost, indexPair⟩]

/-- The buffers of edges. -/
def edgeBuffers : List BufferRow :=
  [⟨"midSpringsPos", "curPos", .serverDevice, position⟩,
    ⟨"midSpringsStarts", "startPos", .serverDevice, position⟩,
    ⟨"midSpringsEnds", "endPos", .serverDevice, position⟩,
    ⟨"midEdgesColors", "midEdgeColor", .serverHost, color⟩,
    ⟨"edgeColors", "edgeColor", .serverHost, color⟩,
    ⟨"edgeIndices", "edgeColor", .edgeIndex, color⟩,
    ⟨"logicalEdges", "curIdx", .serverHost, index⟩,
    ⟨"edgeSeqLens", "edgeSeqLen", .serverHost, index⟩,
    ⟨"forwardsEdgeToUnsortedEdge", "forwardsEdgeToUnsortedEdge", .serverHost, index⟩,
    ⟨"curMidPoints", "curPos", .serverDevice, position⟩,
    ⟨"selectedMidSpringsPos", "curPos", .localStatic, position⟩,
    ⟨"selectedMidEdgesColors", "midEdgeColor", .localStatic, color⟩,
    ⟨"selectedMidSpringsStarts", "startPos", .localStatic, position⟩,
    ⟨"selectedMidSpringsEnds", "endPos", .localStatic, position⟩,
    ⟨"selectedEdgeIndexes", "curIdx", .localStatic, index⟩,
    ⟨"highlightedEdgesPos", "curPos", .localStatic, position⟩]

/-- The buffers of arrows. -/
def arrowBuffers : List BufferRow :=
  [⟨"arrowStartPos", "curPos", .serverDevice, position⟩,
    ⟨"arrowEndPos", "curPos", .serverDevice, position⟩,
    ⟨"arrowNormalDir", "normalDir", .serverDevice, position⟩,
    ⟨"arrowColors", "arrowColor", .serverHost, color⟩,
    ⟨"arrowPointSizes", "pointSize", .serverHost, size⟩,
    ⟨"selectedArrowStartPos", "curPos", .localStatic, position⟩,
    ⟨"selectedArrowEndPos", "curPos", .localStatic, position⟩,
    ⟨"selectedArrowNormalDir", "normalDir", .localStatic, position⟩,
    ⟨"selectedArrowColors", "arrowColor", .localStatic, color⟩,
    ⟨"selectedArrowPointSizes", "pointSize", .localStatic, size⟩,
    ⟨"highlightedArrowStartPos", "curPos", .localStatic, position⟩,
    ⟨"highlightedArrowEndPos", "curPos", .localStatic, position⟩,
    ⟨"highlightedArrowNormalDir", "normalDir", .localStatic, position⟩,
    ⟨"highlightedArrowPointColors", "arrowColor", .localStatic, color⟩,
    ⟨"highlightedArrowPointSizes", "pointSize", .localStatic, size⟩]

/-- The corners of the canvas. -/
def canvasBuffers : List BufferRow :=
  [⟨"fullscreenCoordinates", "vertexPosition", .localStatic, position⟩]

/-- Adds a row to the model it belongs to. -/
def addRow (models : NameTable Model) (row : BufferRow) : NameTable Model :=
  models.update row.model fun model =>
    (model.getD .empty).insert row.name ⟨row.origin, row.layout⟩

/-- The stock models. -/
def models : NameTable Model :=
  (pointBuffers ++ edgeBuffers ++ arrowBuffers ++ canvasBuffers).foldl addRow .empty

end RenderPlan.Stock
