import RenderPlan.Library
import RenderPlan.Number.Layout

/-!
# Reports

A report tells how much the catalogs of a library declare and which items no trigger redraws, and
then, for every plan, what is drawn, on which triggers, and which resources that takes.

## Main definitions

* `Studio.planLines`: the section of one plan.
* `Studio.report`: the report of a library, or why some scene has no plan.
-/

namespace RenderPlan.Studio

/-- Names written in a row. -/
def commaList (names : List String) : String := String.intercalate ", " names

/-- The scale of a target is written plainly, and without a fraction when it is whole. -/
def scaleLayout : NumberLayout where
  isPlain _ := true
  showsFraction := false
  tie := .upward

/-- Text filled up with blanks to a width. -/
def padded (width : Nat) (s : String) : String :=
  s ++ String.ofList (List.replicate (width - s.length) ' ')

/-- The name of an index look-up in a report. -/
def lookupName : IndexLookup → String
  | .vertex => "VertexIndex"
  | .edge => "EdgeIndex"

/-- The line of a trigger; none, if it redraws nothing. -/
def triggerLine? (trigger : String) (items : List String) : Option String :=
  if items.isEmpty then none
  else some ("  on " ++ padded 16 trigger ++ " " ++ commaList items)

/-- The line of an off-canvas target. -/
def targetLine (name : String) (target : Plan.Target) : String :=
  "  target    " ++ name ++ " ×" ++ target.texture.scale.text scaleLayout ++
    (if target.readBack then " (read back)" else "")

/-- A line of names, left out when there are none. -/
def lineUnlessEmpty (label : String) (names : List String) : List String :=
  if names.isEmpty then [] else [label ++ commaList names]

/-- The section of a plan. -/
def planLines (p : Plan) : List String :=
  ["", "  ── " ++ p.scene ++ " ──",
    "  items     " ++ String.intercalate " → " p.itemOrder] ++
  p.triggers.entries.filterMap (fun entry => triggerLine? entry.1 entry.2) ++
  ["  server    " ++ commaList p.serverBuffers.toList] ++
  lineUnlessEmpty "  textures  " p.serverTextures.toList ++
  p.targets.entries.map (fun entry => targetLine entry.1 entry.2) ++
  lineUnlessEmpty "  modes     " (p.indexLookups.toList.map lookupName)

/-- The numbers of declarations and plans. -/
def countsLine (c : Catalogs) (plans : Nat) : String :=
  "  " ++ String.intercalate " · "
    [toString c.programs.size ++ " programs", toString c.models.size ++ " models",
      toString c.textures.size ++ " textures", toString c.items.size ++ " items",
      toString plans ++ " scenes"]

/-- The lines of a report, given every plan of the library. -/
def reportLines (l : Library) (plans : List Plan) : List String :=
  ["", countsLine l.catalogs.value plans.length] ++
  lineUnlessEmpty "  untriggered items: " (l.index.untriggered l.catalogs.value.items) ++
  plans.flatMap planLines ++
  [""]

/-- The text of some lines, each ended. -/
def unlines (lines : List String) : String := String.join (lines.map fun line => line ++ "\n")

/-- The report of a library. Nothing is reported unless every scene has a plan. -/
def report (l : Library) : Except LibraryError String :=
  l.compileAll.1.map fun plans => unlines (reportLines l (plans.values.map Shared.value))

end RenderPlan.Studio
