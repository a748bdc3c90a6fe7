import RenderPlan.Number.Binary

/-!
# Rounding to floating-point words

Every operation whose exact result need not be a word of the format goes through one function,
`Binary.ofRatio`, which takes an exact quotient to the nearest word with ties to even. Integers,
decimals, other formats and products are quotients, so each is rounded once.

## Main definitions

* `nearestEven`: the nearest integer to a quotient, a half going to the even neighbour.
* `Binary.ofRatio`, `Binary.ofInt`, `Binary.ofDecimal`, `Binary.convert`, `Binary.mul`.
* `Binary.truncateWithin`, `Binary.roundWithin`: the way back to integers, clamped to a range.

## Main results

* `nearestEven_le_half`: the rounded quotient is within half a unit of the exact one.
* `Binary.truncateWithin_mem`: a truncated word lies in the range it is clamped to.
-/

namespace RenderPlan

/-- The integer nearest to `num / den`. A half goes to the even neighbour. -/
def nearestEven (num den : Nat) : Nat :=
  let quotient := num / den
  let remainder := num % den
  if 2 * remainder < den then quotient
  else if den < 2 * remainder then quotient + 1
  else quotient + quotient % 2

theorem nearestEven_le_half (num den : Nat) (h : 0 < den) :
    2 * (nearestEven num den * den) ≤ 2 * num + den ∧
      2 * num ≤ 2 * (nearestEven num den * den) + den := by
  have hdiv := Nat.div_add_mod num den
  rw [Nat.mul_comm] at hdiv
  have hcarry : (num / den + 1) * den = num / den * den + den := by rw [Nat.add_mul, Nat.one_mul]
  have hlt := Nat.mod_lt num h
  unfold nearestEven
  dsimp only
  split
  · omega
  · split
    · rw [hcarry]; omega
    · rcases Nat.mod_two_eq_zero_or_one (num / den) with h2 | h2 <;> rw [h2]
      · rw [Nat.add_zero]; omega
      · rw [hcarry]; omega

/-- Numerator and denominator of `num / den` divided by `2 ^ exponent`. -/
def scaleByPowerOfTwo (num den : Nat) (exponent : Int) : Nat × Nat :=
  (num * 2 ^ (-exponent).toNat, den * 2 ^ exponent.toNat)

namespace Binary

variable {p q : Precision}

/-- The word nearest to `num / den`, negated when `negative` is set; a tie goes to the word with
the even significand, and what lies beyond the largest word goes to infinity.

The last place has the power of two at which the quotient has `fractionBits + 1` binary digits,
but none finer than the format's finest. A significand that rounds up to the next power of two
carries into the exponent field by itself, because the fields are added. -/
def ofRatio (negative : Bool) (num den : Nat) : Binary p :=
  if num = 0 then ofMagnitude negative 0 else
  let coarse : Int := (Nat.log2 num : Int) - Nat.log2 den - 1 - p.fractionBits
  let wide := scaleByPowerOfTwo num den coarse
  let fitted := if wide.1 < 2 ^ (p.fractionBits + 1) * wide.2 then coarse else coarse + 1
  let place := max fitted p.finestExponent
  let scaled := scaleByPowerOfTwo num den place
  let magnitude :=
    (place - p.finestExponent).toNat * 2 ^ p.fractionBits + nearestEven scaled.1 scaled.2
  if magnitude < p.topField * 2 ^ p.fractionBits then ofMagnitude negative magnitude
  else infinity negative

/-- The word nearest to `significand * 2 ^ exponent`. -/
def ofDyadic (negative : Bool) (significand : Nat) (exponent : Int) : Binary p :=
  ofRatio negative (significand * 2 ^ exponent.toNat) (2 ^ (-exponent).toNat)

/-- The word nearest to an integer. -/
def ofInt (n : Int) : Binary p := ofRatio (n < 0) n.natAbs 1

/-- The word nearest to `digits * 10 ^ exponent`. Exponents at which every number of that many
digits overflows or vanishes are settled without raising ten to them. -/
def ofDecimal (negative : Bool) (digits : Nat) (exponent : Int) : Binary p :=
  let reach : Int := (2 ^ p.exponentBits : Nat) + p.fractionBits
  if digits = 0 then ofMagnitude negative 0
  else if reach < exponent then infinity negative
  else if exponent + (Nat.log2 digits + 1 : Nat) < -reach then ofMagnitude negative 0
  else ofRatio negative (digits * 10 ^ exponent.toNat) (10 ^ (-exponent).toNat)

/-- A word of another format, rounded to this one. -/
def convert (x : Binary q) : Binary p :=
  match x.datum with
  | .nan => nan
  | .infinite negative => infinity negative
  | .finite negative significand exponent => ofDyadic negative significand exponent

/-- The product of two words, rounded once. -/
def mul (x y : Binary p) : Binary p :=
  match x.datum, y.datum with
  | .nan, _ | _, .nan => nan
  | .infinite s, .infinite t => infinity (s != t)
  | .infinite s, .finite t m _ | .finite t m _, .infinite s =>
    if m = 0 then nan else infinity (s != t)
  | .finite s m e, .finite t n f => ofDyadic (s != t) (m * n) (e + f)

instance : Mul (Binary p) := ⟨mul⟩

instance : OfScientific (Binary p) :=
  ⟨fun digits negativeExponent exponent =>
    ofDecimal false digits (if negativeExponent then -(exponent : Int) else exponent)⟩

instance {n : Nat} : OfNat (Binary p) n := ⟨ofInt n⟩

/-- The integer closest to `n` that lies between `low` and `high`. -/
def clamp (low high n : Int) : Int := max low (min high n)

/-- An integer with the given sign. -/
def signed (negative : Bool) (n : Nat) : Int := if negative then -(n : Int) else n

/-- The word's number without its fractional part, clamped to the range; NaN counts as zero. -/
def truncateWithin (low high : Int) (x : Binary p) : Int :=
  match x.datum with
  | .nan => clamp low high 0
  | .infinite negative => if negative then low else high
  | .finite negative significand exponent =>
    clamp low high
      (signed negative (significand * 2 ^ exponent.toNat / 2 ^ (-exponent).toNat))

/-- The integer nearest to the word's number, a half going away from zero, clamped to the range;
NaN counts as zero. -/
def roundWithin (low high : Int) (x : Binary p) : Int :=
  match x.datum with
  | .nan => clamp low high 0
  | .infinite negative => if negative then low else high
  | .finite negative significand exponent =>
    let den := 2 ^ (-exponent).toNat
    clamp low high
      (signed negative ((2 * (significand * 2 ^ exponent.toNat) + den) / (2 * den)))

theorem clamp_mem {low high : Int} (h : low ≤ high) (n : Int) :
    low ≤ clamp low high n ∧ clamp low high n ≤ high := by
  unfold clamp
  omega

theorem truncateWithin_mem {low high : Int} (h : low ≤ high) (x : Binary p) :
    low ≤ x.truncateWithin low high ∧ x.truncateWithin low high ≤ high := by
  unfold truncateWithin
  split
  · exact clamp_mem h _
  · split <;> omega
  · exact clamp_mem h _

end Binary

end RenderPlan
