import RenderPlan.Scene
import RenderPlan.Stock.Items

/-!
# Stock scenes

The four scenes of the graph view:

* `gis`: straight edges with middle points from the server;
* `default`: curved edges over an opaque background;
* `transparent`: the same over a transparent background, for embedding;
* `netflowStraight`: straight edges with middle points from the client.
-/

namespace RenderPlan.Stock

/-- The items of the map view. -/
def gisRender : List String :=
  ["pointpicking", "pointsampling", "uberdemoedges", "edgepicking", "arrowculled",
    "arrowhighlight", "arrowselected", "uberpointculled", "edgehighlight", "edgeselected",
    "fullscreen", "fullscreenDummy", "fullscreenDark", "pointhighlight", "pointselected"]

/-- The items of the graph views. -/
def graphRender : List String :=
  ["pointpicking", "pointsampling", "pointoutlinetexture", "pointculledtexture",
    "midedgeculled", "edgepicking", "arrowculled", "arrowhighlight", "edgehighlight",
    "arrowselected", "edgeselected", "pointoutline", "pointculled", "fullscreen",
    "fullscreenDummy", "fullscreenDark", "pointhighlight", "pointselected"]

/-- A byte as a fraction of the largest byte. -/
def byteFraction (n : Nat) : Binary64 := .ofRatio false n 255

/-- Clears to the background colour with the given opacity. -/
def clearBackground (opacity : Binary64) : GlState := .ofList
  [("clearColor", [.ofNumbers [byteFraction 51, byteFraction 51, byteFraction 57, opacity]])]

/-- The GL state of every stock scene, unless it says otherwise. -/
def sceneGlState : GlState :=
  NameTable.overriddenBy
    (.ofList
      ([("enable", [.ofSymbols ["BLEND"], .ofSymbols ["DEPTH_TEST"]]),
          ("disable", [.ofSymbols ["CULL_FACE"]])] ++
        blending ++
        [("depthFunc", [.ofSymbols ["LEQUAL"]]), ("lineWidth", [.ofNumbers [1]])]))
    (clearBackground 1)

/-- The same over a transparent background. -/
def transparentGlState : GlState := sceneGlState.overriddenBy (clearBackground 0)

/-- Edges curved by the client. -/
def curvedEdges : EdgeParameters := ⟨some 8, true, some 0.2⟩

/-- The stock scenes, in the order in which they are listed. -/
def scenes : List Scene :=
  [{ name := "gis", glState := sceneGlState, render := gisRender },
    { name := "default", glState := sceneGlState, parameters := curvedEdges,
      render := graphRender },
    { name := "transparent", glState := transparentGlState, parameters := curvedEdges,
      render := graphRender },
    { name := "netflowStraight", glState := sceneGlState, parameters := ⟨some 0, true, none⟩,
      render := graphRender }]

end RenderPlan.Stock
