import RenderPlan.Number.Rounding

/-!
# The shortest decimal of a floating-point word

A word is written with the fewest decimal digits that read back as the same word, and of the
decimals with that many digits the nearest one. For each number of digits only the two neighbours
of the word's number on that decimal grid can win: when any point of the grid rounds to the word,
so does one of them.

## Main definitions

* `Decimal`: digits and a power of ten.
* `Binary.shortest`: the decimal that a finite word is written as.

## Main results

* `Binary.ofDecimal_shortestOfLength`: a decimal found by the search reads back as the word.
-/

namespace RenderPlan

/-- The number `digits * 10 ^ exponent`. -/
structure Decimal where
  digits : Nat
  exponent : Int
deriving DecidableEq

/-- Which of two equally near decimals is taken. -/
inductive TieRule where
  | toEven
  | upward
deriving DecidableEq

namespace Decimal

/-- The decimal digits of the significand, most significant first. -/
def digitChars (d : Decimal) : List Char := Nat.toDigits 10 d.digits

/-- The power of ten of the leading digit. -/
def leadingExponent (d : Decimal) : Int := d.exponent + ((d.digitChars.length - 1 : Nat) : Int)

/-- The same number without trailing zero digits. -/
def normalized (d : Decimal) : Decimal :=
  if h : d.digits ≠ 0 ∧ d.digits % 10 = 0 then
    normalized ⟨d.digits / 10, d.exponent + 1⟩
  else d
termination_by d.digits
decreasing_by exact Nat.div_lt_self (Nat.pos_of_ne_zero h.1) (by decide)

/-- The power of ten of the leading digit of `num / den`. -/
def leadingExponentOfRatio (num den : Nat) : Int :=
  if den ≤ num then ((Nat.toDigits 10 (num / den)).length - 1 : Nat)
  else -((Nat.toDigits 10 ((den + num - 1) / num - 1)).length : Int)

end Decimal

namespace Binary

variable {p : Precision}

/-- The decimal of `length` digits that rounds to `x`, if there is one: the neighbour below or
above the number `num / den` on that grid, the nearer when both round to `x`. -/
def shortestOfLength (x : Binary p) (tie : TieRule) (num den length : Nat) : Option Decimal :=
  let unit := Decimal.leadingExponentOfRatio num den - length + 1
  let scaled := num * 10 ^ (-unit).toNat
  let grid := den * 10 ^ unit.toNat
  let below := scaled / grid
  let excess := 2 * (scaled % grid)
  let readsBack (digits : Nat) : Bool := ofDecimal x.isNegative digits unit = x
  let preferBelow : Bool :=
    decide (excess < grid) || (decide (excess = grid) && tie == .toEven && below % 2 == 0)
  if readsBack below && (preferBelow || !readsBack (below + 1)) then some ⟨below, unit⟩
  else if readsBack (below + 1) then some ⟨below + 1, unit⟩
  else none

theorem ofDecimal_shortestOfLength {x : Binary p} {tie : TieRule} {num den length : Nat}
    {d : Decimal} (h : x.shortestOfLength tie num den length = some d) :
    ofDecimal x.isNegative d.digits d.exponent = x := by
  unfold shortestOfLength at h
  dsimp only at h
  split at h
  · next hb =>
    simp only [Bool.and_eq_true, decide_eq_true_eq] at hb
    cases h
    exact hb.1
  · split at h
    · next ha =>
      simp only [decide_eq_true_eq] at ha
      cases h
      exact ha
    · cases h

/-- Seventeen digits tell any two 64-bit words apart. -/
def longestSearched : Nat := 17

/-- The decimal that the magnitude of a finite word is written as. -/
def shortest (x : Binary p) (tie : TieRule) : Decimal :=
  match x.datum with
  | .finite _ significand exponent =>
    if significand = 0 then ⟨0, 0⟩ else
    let num := significand * 2 ^ exponent.toNat
    let den := 2 ^ (-exponent).toNat
    let found := (List.range longestSearched).findSome? fun k =>
      x.shortestOfLength tie num den (k + 1)
    (found.getD ⟨0, 0⟩).normalized
  | _ => ⟨0, 0⟩

end Binary

end RenderPlan
