import RenderPlan.Layers
import RenderPlan.Number.Binary

/-!
# GL state

The GL state of a scene or an item names state functions and lists for each the calls to make, in
order. State is composed name by name: calls are replaced whole, never merged.

## Main definitions

* `GlState.Argument`, `GlState.Call`, `GlState`.
* `Primitive`: what a draw call assembles.
-/

namespace RenderPlan

/-- What a draw call assembles from its vertices. -/
inductive Primitive where
  | points
  | lines
  | triangles
deriving DecidableEq

/-- An argument of a state call: a number or a symbolic constant. -/
inductive GlState.Argument where
  | number (x : Binary64)
  | symbol (name : String)
deriving DecidableEq, BEq

/-- The arguments of one call of a state function. -/
abbrev GlState.Call : Type := List GlState.Argument

/-- A call with numbers. -/
def GlState.Call.ofNumbers (xs : List Binary64) : Call := xs.map .number

/-- A call with symbolic constants. -/
def GlState.Call.ofSymbols (names : List String) : Call := names.map .symbol

/-- The calls to make of each state function. -/
abbrev GlState : Type := NameTable (List GlState.Call)

end RenderPlan
