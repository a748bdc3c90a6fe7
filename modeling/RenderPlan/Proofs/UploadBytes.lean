import Mathlib.Data.Rat.Floor
import Mathlib.Tactic.FieldSimp
import Mathlib.Tactic.Ring
import RenderPlan.UniformStore

/-!
# The bytes of an upload

A slot is uploaded as four bytes for each of its values, in their order and with the least
significant byte first. Values of float and matrix shapes are uploaded as they are, bit by bit.
Values of integer shapes are uploaded as 32-bit integers in two's complement: the number that the
word stands for without its fraction, or the nearest end of the range where that is not in it, and
zero where the word stands for no number.

## Main definitions

* `Binary.value`: the number that a finite word stands for, read off its fields
* `truncate`: a rational number without its fraction
* `Binary.saturated`: the 32-bit integer that a word is uploaded as
* `ofLittleEndian`, `byteGroup`: the number that bytes spell, and the bytes of one value

## Main results

* `Binary.value_of_datum`: the fields and the datum of a word give the same number
* `Binary.integerOf_eq_saturated`: the integer of a word is the one described
* `UniformStore.bytes_encode_values`: the bytes of a slot, group by group
-/

namespace RenderPlan

/-! ## Numbers without their fractions -/

/-- A number without its fraction. -/
def truncate (x : ℚ) : ℤ := if x < 0 then ⌈x⌉ else ⌊x⌋

theorem truncate_neg (x : ℚ) : truncate (-x) = -truncate x := by
  rcases lt_trichotomy x 0 with hx | rfl | hx
  · rw [truncate, truncate, if_neg (by linarith), if_pos hx, Int.floor_neg]
  · simp [truncate]
  · rw [truncate, truncate, if_pos (by linarith), if_neg (by linarith), Int.ceil_neg]

/-- The quotient of natural numbers without its fraction is their integer quotient. -/
theorem truncate_div (m n : ℕ) : truncate (m / n : ℚ) = (m / n : ℕ) := by
  have hnonneg : (0 : ℚ) ≤ m / n := div_nonneg m.cast_nonneg n.cast_nonneg
  rw [truncate, if_neg (not_lt.mpr hnonneg), Rat.floor_natCast_div_natCast, Int.natCast_div]

namespace Binary

variable {p : Precision}

/-- The exponent field of the words between one and two. -/
def bias (p : Precision) : ℤ := (2 ^ (p.exponentBits - 1) : ℕ) - 1

/-- The number that a finite word stands for, without its sign: a fraction, to which one is added
unless the exponent field is zero, times a power of two. -/
def magnitude (x : Binary p) : ℚ :=
  let fraction : ℚ := x.fractionField / 2 ^ p.fractionBits
  if x.exponentField = 0 then fraction * 2 ^ (1 - bias p)
  else (1 + fraction) * 2 ^ ((x.exponentField : ℤ) - bias p)

/-- **The number that a finite word stands for.** -/
def value (x : Binary p) : ℚ := if x.isNegative then -x.magnitude else x.magnitude

/-- A number of last places is a fraction of a power of two that is higher by as many places as the
fraction has. -/
theorem mul_finestExponent (m : ℚ) (n : ℤ) :
    m * 2 ^ (p.finestExponent + n) = m / 2 ^ p.fractionBits * 2 ^ (1 - bias p + n) := by
  have hexponent : 1 - bias p + n = p.finestExponent + n + (p.fractionBits : ℤ) := by
    rw [bias, Precision.finestExponent]
    ring
  rw [hexponent, zpow_add₀ two_ne_zero (p.finestExponent + n), zpow_natCast]
  field_simp

/-- **The number of a datum** is that of the word's fields. -/
theorem value_of_datum {x : Binary p} {negative : Bool} {significand : ℕ} {exponent : ℤ}
    (h : x.datum = .finite negative significand exponent) :
    x.isFinite = true ∧
      x.value =
        if negative then -(significand * 2 ^ exponent : ℚ) else significand * 2 ^ exponent := by
  rw [datum] at h
  split_ifs at h with htop hfraction hzero
  · -- without a leading one, the fraction counts last places
    cases h
    refine ⟨by simpa [isFinite] using htop, ?_⟩
    have := mul_finestExponent (p := p) x.fractionField 0
    rw [add_zero, add_zero] at this
    rw [value, magnitude, if_pos hzero, this]
  · -- the leading one stands above the fraction
    cases h
    refine ⟨by simpa [isFinite] using htop, ?_⟩
    have hone : ((2 ^ p.fractionBits + x.fractionField : ℕ) : ℚ) / 2 ^ p.fractionBits =
        1 + x.fractionField / 2 ^ p.fractionBits := by
      push_cast
      field_simp
    have hexponent : 1 - bias p + (x.exponentField - 1 : ℕ) = (x.exponentField : ℤ) - bias p := by
      omega
    rw [value, magnitude, if_neg hzero, mul_finestExponent, hone, hexponent]

/-- What is left of a multiple of a power of two without its fraction. -/
theorem truncate_dyadic (m : ℕ) (e : ℤ) :
    truncate (m * 2 ^ e : ℚ) = (m * 2 ^ e.toNat / 2 ^ (-e).toNat : ℕ) := by
  have hquotient : (m * 2 ^ e : ℚ) = (m * 2 ^ e.toNat : ℕ) / (2 ^ (-e).toNat : ℕ) := by
    obtain ⟨n, rfl | rfl⟩ := e.eq_nat_or_neg
    · simp
    · simp [div_eq_mul_inv]
  rw [hquotient, truncate_div]

/-- **The 32-bit integer of a word**: its number without the fraction, or the nearest end of the
range where that is not in it; zero, if the word stands for no number. -/
def saturated (x : Binary p) : ℤ :=
  if x.isNaN then 0
  else if x.isFinite then max (-2 ^ 31) (min (2 ^ 31 - 1) (truncate x.value))
  else if x.isNegative then -2 ^ 31 else 2 ^ 31 - 1

theorem isNaN_of_datum {x : Binary p} (h : x.datum = .nan) : x.isNaN = true := by
  rw [datum] at h
  split_ifs at h with htop hfraction
  simp [isNaN, htop, hfraction]

theorem infinite_of_datum {x : Binary p} {negative : Bool} (h : x.datum = .infinite negative) :
    x.isNaN = false ∧ x.isFinite = false ∧ x.isNegative = negative := by
  rw [datum] at h
  split_ifs at h with htop hfraction
  cases h
  simp [isNaN, isFinite, htop, hfraction]

theorem isNaN_of_isFinite {x : Binary p} (h : x.isFinite = true) : x.isNaN = false := by
  rw [isFinite, bne_iff_ne] at h
  simp [isNaN, h]

/-- The integer that a value is uploaded as is that of its word. -/
theorem integerOf_eq_saturated (x : Binary32) :
    UniformStore.Slot.integerOf x = x.saturated := by
  rw [UniformStore.Slot.integerOf, truncateWithin, saturated]
  cases hdatum : x.datum with
  | nan =>
    rw [if_pos (isNaN_of_datum hdatum)]
    decide
  | infinite negative =>
    obtain ⟨hnan, hfinite, hnegative⟩ := infinite_of_datum hdatum
    simp [hnan, hfinite, hnegative]
  | finite negative significand exponent =>
    obtain ⟨hfinite, hvalue⟩ := value_of_datum hdatum
    have htruncate : truncate x.value =
        signed negative (significand * 2 ^ exponent.toNat / 2 ^ (-exponent).toNat) := by
      rw [hvalue, signed]
      cases negative <;> simp [truncate_neg, truncate_dyadic]
    simp [isNaN_of_isFinite hfinite, hfinite, htruncate, clamp]

theorem saturated_mem (x : Binary p) : -2 ^ 31 ≤ x.saturated ∧ x.saturated < 2 ^ 31 := by
  rw [saturated]
  split_ifs <;> omega

end Binary

/-! ## Bytes -/

/-- The number that bytes spell, the least significant first. -/
def ofLittleEndian (bytes : List UInt8) : ℕ :=
  bytes.foldr (fun byte rest => byte.toNat + 2 ^ 8 * rest) 0

/-- The bytes of the value at a place. -/
def byteGroup (bytes : List UInt8) (i : ℕ) : List UInt8 := (bytes.drop (4 * i)).take 4

theorem ofLittleEndian_littleEndian {n : ℕ} (h : n < 2 ^ 32) :
    ofLittleEndian (UniformStore.littleEndian n) = n := by
  simp only [ofLittleEndian, UniformStore.littleEndian, List.map_cons, List.map_nil,
    List.foldr_cons, List.foldr_nil, UInt8.toNat_ofNat']
  omega

theorem byteGroup_flatMap {α : Type} {encode : α → List UInt8}
    (hlength : ∀ a, (encode a).length = 4) :
    ∀ (values : List α) (i : ℕ) (hi : i < values.length),
      byteGroup (values.flatMap encode) i = encode values[i]
  | a :: values, 0, _ => by
    rw [byteGroup, List.flatMap_cons, Nat.mul_zero, List.drop_zero,
      List.take_left' (hlength a)]
    rfl
  | a :: values, i + 1, hi => by
    have hrest := byteGroup_flatMap hlength values i (Nat.lt_of_succ_lt_succ hi)
    rw [List.getElem_cons_succ, ← hrest, byteGroup, byteGroup, List.flatMap_cons, Nat.mul_succ,
      Nat.add_comm, ← List.drop_drop, List.drop_left' (hlength a)]

/-- Integers are uploaded for two shapes. -/
theorem Uniform.Shape.isInteger_iff {shape : Uniform.Shape} :
    shape.isInteger = true ↔ shape = .int1 ∨ shape = .int2 := by
  cases shape <;> decide

namespace UniformStore

variable {s : UniformStore} {item uniform : String} {slot : Slot}

/-- What the bytes of one value spell. -/
theorem Slot.ofLittleEndian_valueBytes (shape : Uniform.Shape) (x : Binary32) :
    ofLittleEndian (valueBytes shape x) =
      if shape.isInteger then (BitVec.ofInt 32 x.saturated).toNat else x.toBits := by
  rw [valueBytes, ofLittleEndian_littleEndian, Binary.integerOf_eq_saturated]
  split
  · exact BitVec.isLt _
  · exact x.bits.isLt

/-- **The bytes of a slot encode its values.** Four bytes are uploaded for each value, in the order of
the values. Those of a value spell, with the least significant byte first, the bits of its word for
the shapes that hold floats, and in two's complement the word's integer for the two shapes that hold
integers. -/
theorem bytes_encode_values (h : s.slot? item uniform = some slot) :
    ∃ bytes, s.bytes? item uniform = some bytes ∧
      s.values? item uniform = some slot.values ∧
      bytes.length = 4 * slot.values.length ∧
      ∀ (i : ℕ) (hi : i < slot.values.length),
        (slot.shape ≠ .int1 ∧ slot.shape ≠ .int2 →
          ofLittleEndian (byteGroup bytes i) = slot.values[i].toBits) ∧
        (slot.shape = .int1 ∨ slot.shape = .int2 →
          (BitVec.ofNat 32 (ofLittleEndian (byteGroup bytes i))).toInt =
            slot.values[i].saturated) := by
  refine ⟨slot.bytes, by rw [bytes?, h, Option.map_some], by rw [values?, h, Option.map_some],
    slot.length_bytes, fun i hi => ?_⟩
  have hgroup : byteGroup slot.bytes i = Slot.valueBytes slot.shape slot.values[i] :=
    byteGroup_flatMap (fun _ => rfl) slot.values i hi
  rw [hgroup, Slot.ofLittleEndian_valueBytes]
  constructor
  · rintro ⟨hint1, hint2⟩
    rw [if_neg (mt Uniform.Shape.isInteger_iff.mp (not_or.mpr ⟨hint1, hint2⟩))]
  · intro hshape
    obtain ⟨hlow, hhigh⟩ := slot.values[i].saturated_mem
    rw [if_pos (Uniform.Shape.isInteger_iff.mpr hshape), BitVec.ofNat_toNat, BitVec.setWidth_eq,
      BitVec.toInt_ofInt, Int.bmod_eq_of_le (by omega) (by omega)]

/-- A store with a slot of an integer shape that holds minus two and a half, the positive infinity and
a NaN with a payload. -/
def oddIntegers : UniformStore :=
  ⟨NameTable.empty.insert "grid" (NameTable.empty.insert "size"
    ⟨.int2, [], [.ofBits 0xc0200000, .infinity false, .ofBits 0x7fc00001]⟩)⟩

/-- The three values are uploaded as minus two, as the greatest integer and as zero. -/
theorem bytes_encode_oddIntegers :
    ∃ slot bytes, oddIntegers.slot? "grid" "size" = some slot ∧
      oddIntegers.bytes? "grid" "size" = some bytes ∧ bytes.length = 12 ∧
      [0, 1, 2].map (fun i => (BitVec.ofNat 32 (ofLittleEndian (byteGroup bytes i))).toInt) =
        [-2, 2147483647, 0] := by
  have hslot : oddIntegers.slot? "grid" "size" =
      some ⟨.int2, [], [.ofBits 0xc0200000, .infinity false, .ofBits 0x7fc00001]⟩ := rfl
  obtain ⟨bytes, hbytes, -, hlength, hgroups⟩ := bytes_encode_values hslot
  have hint (i : ℕ) (hi : i < 3) := (hgroups i hi).2 (.inr rfl)
  refine ⟨_, bytes, hslot, hbytes, hlength, ?_⟩
  simp only [List.map_cons, List.map_nil]
  rw [hint 0 (by decide), hint 1 (by decide), hint 2 (by decide)]
  simp only [← Binary.integerOf_eq_saturated]
  decide

end UniformStore

end RenderPlan
