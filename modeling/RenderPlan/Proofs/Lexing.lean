import RenderPlan.Json.Token
import RenderPlan.Json.Writer

/-!
# Cutting written text into tokens

The lexer reads one character after the other. Between two tokens it remembers nothing but the
tokens read so far, so the pieces of a text can be looked at one by one, provided that each ends
where the next begins: a word or a numeral ends at the first character that cannot belong to it.

## Main definitions

* `Json.Lexer.Spells`, `Json.Lexer.Completes`: a piece of text adds the given tokens
* `Json.Lexer.IsNumeralText`: a piece of text that can only be a numeral

## Main results

* `Json.Lexer.Spells.append_completes`, `Json.Lexer.Completes.append`: pieces in a row add their
  tokens in a row
* `Json.Lexer.completes_quote`: a quoted string adds its string
* `Json.Lexer.spells_numeral`: a numeral adds its number
-/

namespace RenderPlan.Json

namespace Lexer

/-! ## Pieces of text -/

/-- Read between two tokens, the text adds the given ones, the last of which may be ended only by
what follows. -/
def Spells (text : List Char) (added : List Token) : Prop :=
  ∀ tokens, ∃ l, text.foldlM step ⟨tokens, .blank⟩ = some l ∧
    l.settle = some (added.reverse ++ tokens)

/-- Read between two tokens, the text adds the given ones and ends between two tokens. -/
def Completes (text : List Char) (added : List Token) : Prop :=
  ∀ tokens, text.foldlM step ⟨tokens, .blank⟩ = some ⟨added.reverse ++ tokens, .blank⟩

/-- The character belongs to no word and to no numeral. -/
def isSeparator (c : Char) : Bool := !isNumeralChar c && !('a' ≤ c && c ≤ 'z')

theorem step_word (tokens : List Token) (letters : List Char) (c : Char) :
    step ⟨tokens, .word letters⟩ c =
      if 'a' ≤ c ∧ c ≤ 'z' then some ⟨tokens, .word (c :: letters)⟩
      else (settle ⟨tokens, .word letters⟩).bind (start · c) := rfl

theorem step_numeral (tokens : List Token) (chars : List Char) (c : Char) :
    step ⟨tokens, .numeral chars⟩ c =
      if isNumeralChar c then some ⟨tokens, .numeral (c :: chars)⟩
      else (settle ⟨tokens, .numeral chars⟩).bind (start · c) := rfl

theorem settle_numeral (tokens : List Token) (chars : List Char) :
    settle ⟨tokens, .numeral chars⟩ =
      (Numeral.ofChars? chars.reverse).map fun numeral => .number numeral.number? :: tokens := rfl

theorem step_string (tokens : List Token) (parts : List StringPart) (c : Char) :
    step ⟨tokens, .string parts⟩ c =
      if c = '"' then some ⟨.string (StringPart.text? parts.reverse) :: tokens, .blank⟩
      else if c = '\\' then some ⟨tokens, .escape parts⟩
      else if c.toNat < 32 then none
      else some ⟨tokens, .string (.char c :: parts)⟩ := rfl

theorem step_unit (tokens : List Token) (parts : List StringPart) (digitsLeft value : Nat)
    (c : Char) :
    step ⟨tokens, .unit parts digitsLeft value⟩ c =
      (hexValue? c).map fun digit =>
        if digitsLeft ≤ 1 then ⟨tokens, .string (.unit (16 * value + digit) :: parts)⟩
        else ⟨tokens, .unit parts (digitsLeft - 1) (16 * value + digit)⟩ := rfl

/-- A separator ends the word or numeral being read. -/
theorem step_of_isSeparator {l : Lexer} {tokens : List Token} (h : l.settle = some tokens)
    {c : Char} (hc : isSeparator c = true) : l.step c = start tokens c := by
  rw [isSeparator, Bool.and_eq_true, Bool.not_eq_true', Bool.not_eq_true'] at hc
  obtain ⟨hnumeral, hword⟩ := hc
  obtain ⟨read, mode⟩ := l
  cases mode with
  | blank =>
    cases h
    rfl
  | word letters =>
    have hword : ¬('a' ≤ c ∧ c ≤ 'z') := by simpa using hword
    rw [step_word, if_neg hword, h]
    rfl
  | numeral chars =>
    rw [step_numeral, hnumeral, if_neg Bool.false_ne_true, h]
    rfl
  -- inside a string no token has ended
  | string parts => cases h
  | escape parts => cases h
  | unit parts digitsLeft value => cases h

theorem completes_nil : Completes [] [] := fun _ => rfl

theorem Completes.spells {text : List Char} {added : List Token} (h : Completes text added) :
    Spells text added :=
  fun tokens => ⟨_, h tokens, rfl⟩

theorem Completes.append {xs ys : List Char} {added added' : List Token} (hxs : Completes xs added)
    (hys : Completes ys added') : Completes (xs ++ ys) (added ++ added') := by
  intro tokens
  rw [List.foldlM_append, hxs tokens, List.reverse_append, List.append_assoc]
  exact hys _

theorem Completes.append_spells {xs ys : List Char} {added added' : List Token}
    (hxs : Completes xs added) (hys : Spells ys added') : Spells (xs ++ ys) (added ++ added') := by
  intro tokens
  obtain ⟨l, hl, hsettle⟩ := hys (added.reverse ++ tokens)
  refine ⟨l, ?_, ?_⟩
  · rw [List.foldlM_append, hxs tokens]
    exact hl
  · rw [hsettle, List.reverse_append, List.append_assoc]

/-- What follows begins with a separator, so that it ends the token before it. -/
theorem Spells.append_completes {xs ys : List Char} {added added' : List Token}
    (hxs : Spells xs added) {c : Char} (hc : isSeparator c = true)
    (hys : Completes (c :: ys) added') : Completes (xs ++ c :: ys) (added ++ added') := by
  intro tokens
  obtain ⟨l, hl, hsettle⟩ := hxs tokens
  have hend := hys (added.reverse ++ tokens)
  rw [List.foldlM_cons] at hend
  rw [List.foldlM_append, hl, List.reverse_append, List.append_assoc]
  show (c :: ys).foldlM step l = _
  rw [List.foldlM_cons, step_of_isSeparator hsettle hc]
  exact hend

/-- A text that spells tokens is cut into them. -/
theorem tokens?_of_spells {text : List Char} {added : List Token} (h : Spells text added) :
    tokens? text = some added := by
  obtain ⟨l, hl, hsettle⟩ := h []
  rw [tokens?, hl]
  show l.settle.bind (fun tokens => some tokens.reverse) = _
  rw [hsettle, List.append_nil, Option.bind_some, List.reverse_reverse]

/-! ## Blanks and words -/

theorem completes_spaces (n : Nat) : Completes (List.replicate n ' ') [] := by
  induction n with
  | zero => exact completes_nil
  | succ n ih => exact ih

theorem completes_newline (level : Nat) : Completes (newline level).toList [] := by
  rw [newline, String.toList_ofList]
  exact completes_spaces _

theorem spells_null : Spells "null".toList [.null] := fun _ => ⟨_, rfl, rfl⟩

theorem spells_bool (b : Bool) : Spells (if b then "true" else "false").toList [.bool b] := by
  cases b with
  | false => exact fun _ => ⟨_, rfl, rfl⟩
  | true => exact fun _ => ⟨_, rfl, rfl⟩

/-! ## Strings -/

theorem hexValue?_hexDigit (n : Nat) : hexValue? (hexDigit n) = some (n % 16) := by
  have h : ∀ m < 16, hexValue? (Nat.digitChar m) = some m := by decide
  exact h _ (Nat.mod_lt n (by decide))

/-- A unit below the surrogates is a character of its own. -/
theorem chars?_unit {n : Nat} (hn : n < 32) (rest : List StringPart) :
    StringPart.chars? (.unit n :: rest) =
      (StringPart.chars? rest).map (Char.ofNat n :: ·) := by
  have hhigh : StringPart.isHighSurrogate n = false := by
    simp [StringPart.isHighSurrogate]; omega
  have hlow : StringPart.isLowSurrogate n = false := by
    simp [StringPart.isLowSurrogate]; omega
  cases rest with
  | nil => simp [StringPart.chars?, hhigh, hlow]
  | cons part rest => cases part <;> simp [StringPart.chars?, hhigh, hlow]

/-- The last two digits of the escape of a control character are read as its number. -/
theorem foldlM_unitDigits {n : Nat} (hn : n < 32) (tokens : List Token) (parts : List StringPart) :
    [hexDigit (n / 16), hexDigit n].foldlM step ⟨tokens, .unit parts 2 0⟩ =
      some ⟨tokens, .string (.unit n :: parts)⟩ := by
  have hvalue : 16 * (16 * 0 + n / 16 % 16) + n % 16 = n := by omega
  rw [List.foldlM_cons, step_unit, hexValue?_hexDigit]
  show [hexDigit n].foldlM step ⟨tokens, .unit parts 1 (16 * 0 + n / 16 % 16)⟩ = _
  rw [List.foldlM_cons, step_unit, hexValue?_hexDigit, Option.map_some, if_pos (Nat.le_refl 1),
    hvalue]
  rfl

/-- **One character** of a string is read back as one part, which spells the character. -/
theorem exists_part_of_escape (c : Char) :
    ∃ part, (∀ tokens parts, (escape c).foldlM step ⟨tokens, .string parts⟩ =
        some ⟨tokens, .string (part :: parts)⟩) ∧
      ∀ rest, StringPart.chars? (part :: rest) = (StringPart.chars? rest).map (c :: ·) := by
  have hofNat : Char.ofNat c.toNat = c := Char.ofNat_toNat c
  unfold escape
  split
  · exact ⟨.char '"', fun _ _ => rfl, fun _ => rfl⟩
  · exact ⟨.char '\\', fun _ _ => rfl, fun _ => rfl⟩
  · exact ⟨.char '\n', fun _ _ => rfl, fun _ => rfl⟩
  · exact ⟨.char '\r', fun _ _ => rfl, fun _ => rfl⟩
  · exact ⟨.char '\t', fun _ _ => rfl, fun _ => rfl⟩
  next hquote hbackslash _ _ _ =>
  -- backspace and form feed have letters of their own, other controls are spelled by their number
  split
  · next h =>
    rw [h] at hofNat
    exact ⟨.char c, fun _ _ => by rw [← hofNat]; rfl, fun _ => rfl⟩
  split
  · next h =>
    rw [h] at hofNat
    exact ⟨.char c, fun _ _ => by rw [← hofNat]; rfl, fun _ => rfl⟩
  split
  · next h =>
    refine ⟨.unit c.toNat, fun tokens parts => ?_, fun rest => ?_⟩
    · -- the escape begins with two zeros, which leave the number at zero
      exact foldlM_unitDigits h tokens parts
    · rw [chars?_unit h, hofNat]
  · next h =>
    refine ⟨.char c, fun tokens parts => ?_, fun _ => rfl⟩
    rw [List.foldlM_cons, step_string, if_neg hquote, if_neg hbackslash, if_neg h]
    rfl

/-- The characters of a string are read back as parts that spell the string. -/
theorem exists_parts_of_escape (chars : List Char) :
    ∃ spelled, (∀ tokens parts, (chars.flatMap escape).foldlM step ⟨tokens, .string parts⟩ =
        some ⟨tokens, .string (spelled.reverse ++ parts)⟩) ∧
      StringPart.chars? spelled = some chars := by
  induction chars with
  | nil => exact ⟨[], fun _ _ => rfl, rfl⟩
  | cons c chars ih =>
    obtain ⟨part, hpart, hchar⟩ := exists_part_of_escape c
    obtain ⟨spelled, hspelled, hchars⟩ := ih
    refine ⟨part :: spelled, fun tokens parts => ?_, ?_⟩
    · rw [List.flatMap_cons, List.foldlM_append, hpart, List.reverse_cons, List.append_assoc]
      exact hspelled tokens (part :: parts)
    · rw [hchar, hchars]
      rfl

/-- **A quoted string** adds its string. -/
theorem completes_quote (s : String) : Completes (quote s).toList [.string (some s)] := by
  intro tokens
  obtain ⟨spelled, hspelled, hchars⟩ := exists_parts_of_escape s.toList
  rw [quote, String.toList_ofList, List.cons_append]
  show (s.toList.flatMap escape ++ ['"']).foldlM step ⟨tokens, .string []⟩ = _
  rw [List.foldlM_append, hspelled tokens []]
  show step ⟨tokens, .string (spelled.reverse ++ [])⟩ '"' >>= pure = _
  rw [step_string, if_pos rfl, List.append_nil, List.reverse_reverse, StringPart.text?, hchars,
    Option.map_some, String.ofList_toList]
  rfl

/-! ## Numerals -/

/-- The text begins like a numeral, and all its characters can belong to one. -/
def IsNumeralText (text : List Char) : Prop :=
  ∃ c rest, text = c :: rest ∧ (c = '-' ∨ c.isDigit = true) ∧
    ∀ c ∈ rest, isNumeralChar c = true

theorem start_of_isDigit {c : Char} (hc : c.isDigit = true) (tokens : List Token) :
    start tokens c = some ⟨tokens, .numeral [c]⟩ := by
  -- a digit is none of the marks that are looked for first
  have hne (other : Char) (hother : other.isDigit = false) : c ≠ other := by
    rintro rfl
    rw [hother] at hc
    cases hc
  have hblank : isBlank c = false := by
    simp [isBlank, hne]
  rw [start, hblank, if_neg Bool.false_ne_true, if_neg (hne '[' rfl), if_neg (hne ']' rfl),
    if_neg (hne '\x7b' rfl), if_neg (hne '\x7d' rfl), if_neg (hne ',' rfl), if_neg (hne ':' rfl),
    if_neg (hne '"' rfl), if_pos (by rw [hc]; exact Bool.or_true _)]

theorem foldlM_numeral (tokens : List Token) :
    ∀ (text chars : List Char), (∀ c ∈ text, isNumeralChar c = true) →
      text.foldlM step ⟨tokens, .numeral chars⟩ = some ⟨tokens, .numeral (text.reverse ++ chars)⟩
  | [], _, _ => rfl
  | c :: text, chars, h => by
    rw [List.forall_mem_cons] at h
    rw [List.foldlM_cons, step_numeral, if_pos h.1, List.reverse_cons, List.append_assoc]
    exact foldlM_numeral tokens text (c :: chars) h.2

/-- **A numeral** is read until it ends. -/
theorem foldlM_numeralText {text : List Char} (h : IsNumeralText text) (tokens : List Token) :
    text.foldlM step ⟨tokens, .blank⟩ = some ⟨tokens, .numeral text.reverse⟩ := by
  obtain ⟨c, rest, rfl, hc, hrest⟩ := h
  -- a minus or a digit starts a numeral, and no later character ends it
  have hstart : step ⟨tokens, .blank⟩ c = some ⟨tokens, .numeral [c]⟩ := by
    rcases hc with rfl | hc
    · rfl
    · exact start_of_isDigit hc tokens
  rw [List.foldlM_cons, hstart, List.reverse_cons]
  exact foldlM_numeral tokens rest [c] hrest

theorem tokens?_numeralText {text : List Char} (h : IsNumeralText text) :
    tokens? text = (Numeral.ofChars? text).map fun numeral => [.number numeral.number?] := by
  rw [tokens?, foldlM_numeralText h]
  show (settle ⟨[], .numeral text.reverse⟩).bind (fun tokens => some tokens.reverse) = _
  rw [settle_numeral, List.reverse_reverse]
  cases Numeral.ofChars? text <;> rfl

/-- **A numeral** adds the number that it stands for. -/
theorem spells_numeral {text : List Char} (h : IsNumeralText text) {numeral : Numeral}
    (hnumeral : Numeral.ofChars? text = some numeral) :
    Spells text [.number numeral.number?] := by
  intro tokens
  refine ⟨_, foldlM_numeralText h tokens, ?_⟩
  rw [settle_numeral, List.reverse_reverse, hnumeral]
  rfl

end Lexer

end RenderPlan.Json
