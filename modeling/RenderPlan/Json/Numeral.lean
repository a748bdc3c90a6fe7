import RenderPlan.Json.Value

/-!
# Numerals of JSON text

A numeral is an optional minus, a whole part without superfluous zeros, and optionally a fraction
and a power of ten. A numeral without fraction and power that fits in 64 bits stands for its
integer; every other one, a negative zero too, for the nearest 64-bit word.

## Main definitions

* `Json.Numeral`, `Json.Numeral.ofChars?`: a numeral and its grammar.
* `Json.Numeral.number?`: what it stands for, if the 64-bit format reaches that far.

## Main results

* `Json.takeDigits_append`, `Json.takeDigits_isDigit`: splitting off the leading digits loses
  nothing and takes digits only.
-/

namespace RenderPlan.Json

/-- A numeral of JSON text. -/
structure Numeral where
  negative : Bool
  whole : List Char
  /-- The digits after the point; absent when there is no point. -/
  fraction : Option (List Char)
  /-- The power of ten; absent when none is written. -/
  exponent : Option Int
deriving DecidableEq

/-- The number spelled by decimal digits. -/
def digitsToNat (digits : List Char) : Nat :=
  digits.foldl (fun n c => 10 * n + (c.toNat - '0'.toNat)) 0

/-- The leading digits of a text and what follows them. -/
def takeDigits (text : List Char) : List Char × List Char :=
  (text.takeWhile Char.isDigit, text.dropWhile Char.isDigit)

theorem takeDigits_append (text : List Char) : (takeDigits text).1 ++ (takeDigits text).2 = text :=
  List.takeWhile_append_dropWhile

theorem takeDigits_isDigit (text : List Char) : ∀ c ∈ (takeDigits text).1, c.isDigit = true :=
  List.all_eq_true.mp List.all_takeWhile

namespace Numeral

/-- Splits off a leading minus. -/
def takeSign : List Char → Bool × List Char
  | '-' :: rest => (true, rest)
  | text => (false, text)

/-- The fraction and the rest, when a point is followed by at least one digit. -/
def takeFraction? : List Char → Option (Option (List Char) × List Char)
  | '.' :: rest =>
    let (digits, rest) := takeDigits rest
    if digits.isEmpty then none else some (some digits, rest)
  | text => some (none, text)

/-- The power of ten, when the rest of the text is one or is empty. -/
def exponent? : List Char → Option (Option Int)
  | [] => some none
  | mark :: rest =>
    if mark = 'e' ∨ mark = 'E' then
      let (negative, rest) :=
        match rest with
        | '-' :: rest => (true, rest)
        | '+' :: rest => (false, rest)
        | rest => (false, rest)
      let (digits, rest) := takeDigits rest
      if digits.isEmpty || !rest.isEmpty then none
      else some (some (Binary.signed negative (digitsToNat digits)))
    else none

/-- The numeral that a text spells, if it spells one. -/
def ofChars? (text : List Char) : Option Numeral := do
  let (negative, text) := takeSign text
  let (whole, text) := takeDigits text
  if whole.isEmpty || (whole.head? == some '0' && whole.length != 1) then none
  else
    let (fraction, text) ← takeFraction? text
    let exponent ← exponent? text
    return ⟨negative, whole, fraction, exponent⟩

/-- The 64-bit word nearest to the numeral. -/
def toDouble (n : Numeral) : Binary64 :=
  let fraction := n.fraction.getD []
  .ofDecimal n.negative (digitsToNat (n.whole ++ fraction))
    (n.exponent.getD 0 - (fraction.length : Int))

/-- The integer a numeral spells, when it has neither fraction nor power, fits in 64 bits (signed
if negative), and is not a negative zero. -/
def integer? (n : Numeral) : Option Int :=
  let magnitude := digitsToNat n.whole
  if n.fraction.isSome || n.exponent.isSome then none
  else if n.negative then
    if magnitude = 0 || 2 ^ 63 < magnitude then none else some (-(magnitude : Int))
  else if magnitude < 2 ^ 64 then some magnitude else none

/-- What the numeral stands for: nothing, when it lies beyond the 64-bit format. -/
def number? (n : Numeral) : Option Number :=
  match n.integer? with
  | some integer => some (.integer integer)
  | none => if n.toDouble.isFinite then some (.double n.toDouble) else none

end Numeral

end RenderPlan.Json
