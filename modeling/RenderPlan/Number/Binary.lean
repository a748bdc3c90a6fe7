/-!
# Binary floating-point words

A word of a binary interchange format is kept as its bits, so that two zeros, and two NaNs with
different payloads, stay different values. What a word stands for is its `Datum`: NaN, an
infinity, or an exact dyadic number `(-1)^s * m * 2^q`.

## Main definitions

* `Precision`, `Binary`, `Binary32`, `Binary64`: the formats and their words.
* `Binary.datum`: what a word stands for.
* `BEq (Binary p)`: numerical equality, under which NaN differs from itself and the zeros agree.

## Main results

* `Binary.not_beq_self_iff`: the words that differ from themselves are the NaNs.
* `Binary.beq_eq_true_iff`: two words are numerically equal when neither is NaN and they are the
  same word or two zeros.
-/

namespace RenderPlan

-- Powers are those of the core library, also where the powers of a monoid are in scope.
attribute [instance (2000), default_instance 20000] instPowNat

/-- A binary interchange format, given by the sizes of its exponent and fraction fields. -/
structure Precision where
  exponentBits : Nat
  fractionBits : Nat
deriving DecidableEq

namespace Precision

/-- The 32-bit interchange format. -/
def single : Precision := ⟨8, 23⟩

/-- The 64-bit interchange format. -/
def double : Precision := ⟨11, 52⟩

/-- Number of bits of a word: the sign, the exponent field and the fraction field. -/
def width (p : Precision) : Nat := 1 + p.exponentBits + p.fractionBits

/-- The exponent field of infinities and NaNs, with every bit set. -/
def topField (p : Precision) : Nat := 2 ^ p.exponentBits - 1

/-- The power of two of the last place of a subnormal number, the finest one of the format. -/
def finestExponent (p : Precision) : Int :=
  2 - (2 ^ (p.exponentBits - 1) : Nat) - p.fractionBits

end Precision

/-- A word of the format `p`. -/
structure Binary (p : Precision) where
  bits : BitVec p.width
deriving DecidableEq

/-- A 32-bit floating-point word. -/
abbrev Binary32 : Type := Binary .single

/-- A 64-bit floating-point word. -/
abbrev Binary64 : Type := Binary .double

/-- What a floating-point word stands for. -/
inductive Datum where
  | nan
  | infinite (negative : Bool)
  /-- The number `significand * 2 ^ exponent`, negated when `negative` is set. -/
  | finite (negative : Bool) (significand : Nat) (exponent : Int)
deriving DecidableEq

namespace Binary

variable {p : Precision}

/-- The word whose bits spell the number `n`. -/
def ofBits (n : Nat) : Binary p := ⟨BitVec.ofNat p.width n⟩

/-- The bits of a word, read as a number. -/
def toBits (x : Binary p) : Nat := x.bits.toNat

/-- The sign bit. -/
def isNegative (x : Binary p) : Bool := x.bits.msb

/-- The biased exponent field. -/
def exponentField (x : Binary p) : Nat := x.toBits / 2 ^ p.fractionBits % 2 ^ p.exponentBits

/-- The trailing significand field. -/
def fractionField (x : Binary p) : Nat := x.toBits % 2 ^ p.fractionBits

/-- The word with the given sign whose other bits spell `magnitude`. -/
def ofMagnitude (negative : Bool) (magnitude : Nat) : Binary p :=
  ofBits (if negative then 2 ^ (p.exponentBits + p.fractionBits) + magnitude else magnitude)

/-- What the word stands for. A zero exponent field marks zeros and subnormal numbers, which share
the finest exponent; the top field marks infinities and NaNs. -/
def datum (x : Binary p) : Datum :=
  if x.exponentField = p.topField then
    if x.fractionField = 0 then .infinite x.isNegative else .nan
  else if x.exponentField = 0 then
    .finite x.isNegative x.fractionField p.finestExponent
  else
    .finite x.isNegative (2 ^ p.fractionBits + x.fractionField)
      (p.finestExponent + (x.exponentField - 1 : Nat))

/-- The word stands for no number. -/
def isNaN (x : Binary p) : Bool := x.exponentField == p.topField && x.fractionField != 0

/-- The word is one of the two zeros. -/
def isZero (x : Binary p) : Bool := x.exponentField == 0 && x.fractionField == 0

/-- The word stands for a number that is not infinite. -/
def isFinite (x : Binary p) : Bool := x.exponentField != p.topField

/-- The positive zero. -/
def zero : Binary p := ofMagnitude false 0

/-- The infinity of the given sign. -/
def infinity (negative : Bool) : Binary p :=
  ofMagnitude negative (p.topField * 2 ^ p.fractionBits)

/-- The quiet NaN without payload, the result of every operation that has no number to give. -/
def nan : Binary p :=
  ofMagnitude false (p.topField * 2 ^ p.fractionBits + 2 ^ (p.fractionBits - 1))

/-- The word with its sign bit flipped. -/
def negate (x : Binary p) : Binary p :=
  ⟨x.bits ^^^ BitVec.ofNat p.width (2 ^ (p.exponentBits + p.fractionBits))⟩

instance : Neg (Binary p) := ⟨negate⟩

instance : Inhabited (Binary p) := ⟨zero⟩

/-- Numerical equality: NaN differs from every word, itself included, and the two zeros are equal.
Equality of words as data is `=`. -/
def numericallyEqual (x y : Binary p) : Bool :=
  !x.isNaN && !y.isNaN && (decide (x = y) || (x.isZero && y.isZero))

instance : BEq (Binary p) := ⟨numericallyEqual⟩

theorem beq_eq_true_iff (x y : Binary p) :
    (x == y) = true ↔
      x.isNaN = false ∧ y.isNaN = false ∧ (x = y ∨ (x.isZero = true ∧ y.isZero = true)) := by
  show numericallyEqual x y = true ↔ _
  simp [numericallyEqual, and_assoc]

theorem beq_self_iff (x : Binary p) : (x == x) = true ↔ x.isNaN = false := by
  simp [beq_eq_true_iff]

theorem not_beq_self_iff (x : Binary p) : (x == x) = false ↔ x.isNaN = true := by
  have h := beq_self_iff x
  cases hx : x.isNaN <;> cases hb : (x == x) <;> simp_all

theorem beq_comm (x y : Binary p) : (x == y) = (y == x) := by
  rw [Bool.eq_iff_iff, beq_eq_true_iff, beq_eq_true_iff]
  constructor <;> rintro ⟨hx, hy, h⟩ <;> exact ⟨hy, hx, h.imp Eq.symm And.symm⟩

end Binary

end RenderPlan
