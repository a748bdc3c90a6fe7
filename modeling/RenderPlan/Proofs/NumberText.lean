import Mathlib.Data.List.Basic
import Mathlib.Data.List.TakeWhile
import RenderPlan.Proofs.Building
import RenderPlan.Proofs.Lexing
import RenderPlan.Proofs.Rereading

/-!
# Numbers as text

A natural number is written as its digits, and a finite word as a decimal with a point or a power
of ten. Every such text is one numeral. Natural numbers below `2 ^ 64` are read back from theirs;
whether a word is read back from its text is asked of each word by itself.

## Main definitions

* `Json.Number.IsWord64`: a natural number that has 64 bits, or any word
* `Json.Number.KeepsWord`: a finite word is read back from its text

## Main results

* `Json.Lexer.isNumeralText_text`: the text of a finite word is one numeral
* `Json.Numeral.ofChars?_toDigits`, `Json.Numeral.number?_toDigits`: the digits of a natural number
  are read back
* `Json.Number.exists_spells_text`: the text of a number is the one token of what it reads back as
-/

namespace RenderPlan.Json

/-! ## Digits -/

/-- The text begins with a digit, and all its characters can belong to a numeral. -/
def Lexer.IsUnsignedText (text : List Char) : Prop :=
  ∃ c rest, text = c :: rest ∧ c.isDigit = true ∧ ∀ c ∈ rest, isNumeralChar c = true

namespace Lexer

theorem isNumeralChar_of_isDigit {c : Char} (hc : c.isDigit = true) : isNumeralChar c = true := by
  simp [isNumeralChar, hc]

theorem IsUnsignedText.forall_isNumeralChar {text : List Char} (h : IsUnsignedText text) :
    ∀ c ∈ text, isNumeralChar c = true := by
  obtain ⟨c, rest, rfl, hc, hrest⟩ := h
  rw [List.forall_mem_cons]
  exact ⟨isNumeralChar_of_isDigit hc, hrest⟩

theorem IsUnsignedText.append {text rest : List Char} (h : IsUnsignedText text)
    (hrest : ∀ c ∈ rest, isNumeralChar c = true) : IsUnsignedText (text ++ rest) := by
  obtain ⟨c, text, rfl, hc, htext⟩ := h
  refine ⟨c, text ++ rest, rfl, hc, ?_⟩
  rw [List.forall_mem_append]
  exact ⟨htext, hrest⟩

/-- A sign may stand before the digits. -/
theorem IsUnsignedText.isNumeralText {text : List Char} (h : IsUnsignedText text)
    (negative : Bool) : IsNumeralText ((if negative then ['-'] else []) ++ text) := by
  cases negative with
  | true => exact ⟨'-', text, rfl, .inl rfl, h.forall_isNumeralChar⟩
  | false =>
    obtain ⟨c, rest, rfl, hc, hrest⟩ := h
    exact ⟨c, rest, rfl, .inr hc, hrest⟩

theorem forall_isNumeralChar_of_isDigit {text : List Char} (h : ∀ c ∈ text, c.isDigit = true) :
    ∀ c ∈ text, isNumeralChar c = true :=
  fun c hc => isNumeralChar_of_isDigit (h c hc)

theorem isUnsignedText_of_isDigit {text : List Char} (hne : text ≠ [])
    (h : ∀ c ∈ text, c.isDigit = true) : IsUnsignedText text := by
  obtain ⟨c, rest, rfl⟩ := List.exists_cons_of_ne_nil hne
  rw [List.forall_mem_cons] at h
  exact ⟨c, rest, rfl, h.1, forall_isNumeralChar_of_isDigit h.2⟩

theorem isDigit_of_mem_toDigits (n : Nat) : ∀ c ∈ Nat.toDigits 10 n, c.isDigit = true :=
  fun _ hc => Nat.isDigit_of_mem_toDigits (by decide) (by decide) hc

theorem isUnsignedText_toDigits (n : Nat) : IsUnsignedText (Nat.toDigits 10 n) :=
  isUnsignedText_of_isDigit Nat.toDigits_ne_nil (isDigit_of_mem_toDigits n)

/-! ## Decimals -/

theorem forall_isNumeralChar_replicate_zero (n : Nat) :
    ∀ c ∈ List.replicate n '0', isNumeralChar c = true := by
  intro c hc
  rw [List.eq_of_mem_replicate hc]
  rfl

theorem isUnsignedText_plain (layout : NumberLayout) (d : Decimal) :
    IsUnsignedText (layout.plain d) := by
  have hdigits : ∀ c ∈ d.digitChars, isNumeralChar c = true :=
    (isUnsignedText_toDigits d.digits).forall_isNumeralChar
  rw [NumberLayout.plain]
  -- the point stands behind all digits, among them, or before all of them
  split
  · have hpadded : IsUnsignedText (d.digitChars ++ List.replicate d.exponent.toNat '0') :=
      (isUnsignedText_toDigits d.digits).append (forall_isNumeralChar_replicate_zero _)
    refine hpadded.append ?_
    cases layout.showsFraction with
    | false => exact fun c hc => (nomatch hc)
    | true =>
      rw [if_pos rfl, List.forall_mem_cons, List.forall_mem_singleton]
      exact ⟨rfl, rfl⟩
  split
  · next hwhole =>
    -- at least one digit stands before the point
    have htake : d.digitChars.take ((d.digitChars.length : Int) + d.exponent).toNat ≠ [] := by
      rw [Ne, List.take_eq_nil_iff, not_or]
      exact ⟨by omega, Nat.toDigits_ne_nil⟩
    have hunsigned := isUnsignedText_of_isDigit htake
      fun c hc => isDigit_of_mem_toDigits d.digits c (List.mem_of_mem_take hc)
    refine hunsigned.append ?_
    rw [List.forall_mem_cons]
    exact ⟨rfl, fun c hc => hdigits c (List.mem_of_mem_drop hc)⟩
  · refine ⟨'0', _, rfl, rfl, ?_⟩
    rw [List.forall_mem_cons, List.forall_mem_append]
    exact ⟨rfl, forall_isNumeralChar_replicate_zero _, hdigits⟩

theorem isUnsignedText_scientific (d : Decimal) : IsUnsignedText (NumberLayout.scientific d) := by
  obtain ⟨c, rest, hdigits, hc, hrest⟩ := isUnsignedText_toDigits d.digits
  have hpower := (isUnsignedText_toDigits d.leadingExponent.natAbs).forall_isNumeralChar
  have hmark : ∀ c ∈ 'e' :: (if d.leadingExponent < 0 then '-' else '+') ::
      Nat.toDigits 10 d.leadingExponent.natAbs, isNumeralChar c = true := by
    rw [List.forall_mem_cons, List.forall_mem_cons]
    refine ⟨rfl, ?_, hpower⟩
    split <;> rfl
  rw [NumberLayout.scientific, Decimal.digitChars, hdigits]
  refine IsUnsignedText.append ?_ hmark
  cases rest with
  | nil => exact ⟨c, [], rfl, hc, hrest⟩
  | cons digit rest =>
    refine ⟨c, '.' :: digit :: rest, rfl, hc, ?_⟩
    rw [List.forall_mem_cons]
    exact ⟨rfl, hrest⟩

/-- **The text of a finite word** is one numeral. -/
theorem isNumeralText_text {p : Precision} (layout : NumberLayout) {x : Binary p}
    (hx : x.isFinite = true) : IsNumeralText (x.text layout).toList := by
  -- only the top exponent field marks what is not a number
  have hdatum : ∃ negative significand exponent,
      x.datum = .finite negative significand exponent := by
    rw [Binary.isFinite, bne_iff_ne] at hx
    rw [Binary.datum, if_neg hx]
    split <;> exact ⟨_, _, _, rfl⟩
  obtain ⟨negative, significand, exponent, hdatum⟩ := hdatum
  rw [Binary.text, hdatum, String.toList_ofList]
  refine IsUnsignedText.isNumeralText ?_ negative
  rw [NumberLayout.decimal]
  split
  · exact isUnsignedText_plain layout _
  · exact isUnsignedText_scientific _

end Lexer

/-! ## Natural numbers -/

theorem digitsToNat_toDigits (n : Nat) : digitsToNat (Nat.toDigits 10 n) = n :=
  Nat.ofDigitChars_ten_toDigits

/-- Digits of a number begin with a zero only if they are those of zero. -/
theorem head?_toDigits_ne_zero {n : Nat} (hn : n ≠ 0) : (Nat.toDigits 10 n).head? ≠ some '0' := by
  induction n using Nat.strongRecOn with
  | ind n ih =>
    by_cases hlt : n < 10
    · rw [Nat.toDigits_of_lt_base hlt, List.head?_cons]
      have h : ∀ m < 10, m ≠ 0 → some (Nat.digitChar m) ≠ some '0' := by decide
      exact h n hlt hn
    · rw [Nat.toDigits_of_base_le (by decide) (Nat.le_of_not_lt hlt),
        List.head?_append_of_ne_nil _ Nat.toDigits_ne_nil]
      exact ih (n / 10) (by omega) (by omega)

theorem takeSign_toDigits (n : Nat) :
    Numeral.takeSign (Nat.toDigits 10 n) = (false, Nat.toDigits 10 n) := by
  obtain ⟨c, rest, h, hc, -⟩ := Lexer.isUnsignedText_toDigits n
  rw [h]
  unfold Numeral.takeSign
  split
  · next heq =>
    cases heq
    cases hc
  · rfl

theorem takeDigits_toDigits (n : Nat) :
    takeDigits (Nat.toDigits 10 n) = (Nat.toDigits 10 n, []) := by
  have h := Lexer.isDigit_of_mem_toDigits n
  rw [takeDigits, List.takeWhile_eq_self_iff.mpr h, List.dropWhile_eq_nil_iff.mpr h]

/-- **The digits of a natural number** are a numeral without sign, fraction and power. -/
theorem Numeral.ofChars?_toDigits (n : Nat) :
    ofChars? (Nat.toDigits 10 n) = some ⟨false, Nat.toDigits 10 n, none, none⟩ := by
  have hwhole : ((Nat.toDigits 10 n).isEmpty ||
      ((Nat.toDigits 10 n).head? == some '0' && (Nat.toDigits 10 n).length != 1)) = false := by
    -- a leading zero is superfluous unless it is the only digit
    by_cases hn : n = 0
    · rw [hn]
      rfl
    · rw [List.isEmpty_eq_false_iff.mpr Nat.toDigits_ne_nil,
        beq_eq_false_iff_ne.mpr (head?_toDigits_ne_zero hn)]
      rfl
  rw [ofChars?, takeSign_toDigits]
  dsimp only
  rw [takeDigits_toDigits]
  dsimp only
  rw [hwhole]
  rfl

theorem Numeral.number?_toDigits {n : Nat} (hn : n < 2 ^ 64) :
    number? ⟨false, Nat.toDigits 10 n, none, none⟩ = some (.integer n) := by
  have hinteger : integer? ⟨false, Nat.toDigits 10 n, none, none⟩ = some (n : Int) := by
    rw [integer?]
    dsimp only
    rw [digitsToNat_toDigits, if_pos hn]
    rfl
  rw [number?, hinteger]

/-! ## Numbers -/

/-- The number has 64 bits: it is a natural number below `2 ^ 64`, or a word. -/
def Number.IsWord64 : Number → Prop
  | .integer n => ∃ m : Nat, n = m ∧ m < 2 ^ 64
  | _ => True

/-- **A word is kept**: if it is finite, a number with the same word is read back from its text. -/
def Number.KeepsWord : Number → Prop
  | .integer _ => True
  | .single x => x.isFinite = true →
      ∃ n, read? (Number.single x).text = some (.number n) ∧ n.toSingle = x
  | .double x => x.isFinite = true →
      ∃ n, read? (Number.double x).text = some (.number n) ∧ n.toDouble = x

/-- A number read from one numeral is the number of its only token. -/
theorem spells_of_read? {text : String} (h : Lexer.IsNumeralText text.toList) {n : Number}
    (hread : read? text = some (.number n)) : Lexer.Spells text.toList [.number (some n)] := by
  rw [read?, Lexer.tokens?_numeralText h] at hread
  cases hnumeral : Numeral.ofChars? text.toList with
  | none =>
    rw [hnumeral] at hread
    cases hread
  | some numeral =>
    have hspells := Lexer.spells_numeral h hnumeral
    rw [hnumeral] at hread
    cases hnumber : numeral.number? with
    | none =>
      rw [Option.map_some, hnumber] at hread
      cases hread
    | some m =>
      rw [Option.map_some, hnumber] at hread
      cases hread
      rwa [hnumber] at hspells

theorem Number.keepsWord_single_of_tokens? {x : Binary32} (n : Number)
    (h : tokens? (Number.single x).text.toList = some [.number (some n)]) (hn : n.toSingle = x) :
    (Number.single x).KeepsWord := by
  intro _
  have hwithin : (Value.number n).Within (fun _ => True) Builder.deepestReadable :=
    Value.within_number.mpr trivial
  exact ⟨n, read?_of_tokens? h hwithin, hn⟩

theorem spells_text_of_not_isFinite {n : Number} (h : n.isFinite = false) :
    Lexer.Spells n.text.toList [.null] := by
  cases n with
  | integer n => cases h
  | single x | double x =>
    have hx : ¬x.isFinite = true := Bool.eq_false_iff.mp h
    rw [Number.text, if_neg hx]
    exact Lexer.spells_null

/-- **The text of a number** is the one token of what the number reads back as. -/
theorem Number.exists_spells_text {n : Number} (hsize : n.IsWord64) (hword : n.KeepsWord) :
    ∃ v, n.Rereads v ∧ Lexer.Spells n.text.toList v.tokens := by
  cases n with
  | integer n =>
    obtain ⟨m, rfl, hm⟩ := hsize
    have hchars : (Number.integer m).text.toList = Nat.toDigits 10 m := Nat.toList_repr
    have hspells := Lexer.spells_numeral ((Lexer.isUnsignedText_toDigits m).isNumeralText false)
      (Numeral.ofChars?_toDigits m)
    rw [Numeral.number?_toDigits hm] at hspells
    rw [hchars]
    exact ⟨.number (.integer m), rfl, hspells⟩
  | single x | double x =>
    by_cases hx : x.isFinite = true
    · -- of the digits that are written only this much is used: they are read as the word again
      obtain ⟨m, hread, hm⟩ := hword hx
      refine ⟨.number m, ?_, spells_of_read? ?_ hread⟩
      · rw [Rereads, if_pos hx]
        exact ⟨m, rfl, hm⟩
      · rw [Number.text, if_pos hx]
        exact Lexer.isNumeralText_text _ hx
    · refine ⟨.null, ?_, spells_text_of_not_isFinite (Bool.eq_false_iff.mpr hx)⟩
      rw [Rereads, if_neg hx]

end RenderPlan.Json
