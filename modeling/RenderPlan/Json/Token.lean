import RenderPlan.Json.Numeral

/-!
# Tokens of JSON text

The text is cut into tokens one character at a time: `Lexer.step` is the whole lexer, and reading a
text is folding it over the characters. A token whose text is grammatical but stands for nothing, a
numeral beyond the 64-bit format or a string with an unpaired surrogate, is kept without content.

## Main definitions

* `Json.Token`, `Json.tokens?`: the tokens and the tokens of a text.
* `Json.Lexer`: the lexer's state between two characters.
* `Json.StringPart.text?`: the string that raw characters and escapes spell together.
-/

namespace RenderPlan.Json

/-- A token of JSON text. -/
inductive Token where
  | openArray
  | closeArray
  | openObject
  | closeObject
  | comma
  | colon
  | null
  | bool (b : Bool)
  /-- A number, or a numeral that lies beyond the 64-bit format. -/
  | number (n : Option Number)
  /-- A string, or one with an unpaired surrogate. -/
  | string (s : Option String)
deriving DecidableEq

/-- A part of a string literal: a character, or a 16-bit unit given by its hexadecimal digits. -/
inductive StringPart where
  | char (c : Char)
  | unit (n : Nat)
deriving DecidableEq

namespace StringPart

/-- The unit begins a surrogate pair. -/
def isHighSurrogate (n : Nat) : Bool := 0xD800 ≤ n && n < 0xDC00

/-- The unit ends a surrogate pair. -/
def isLowSurrogate (n : Nat) : Bool := 0xDC00 ≤ n && n < 0xE000

/-- The character that a surrogate pair stands for. -/
def ofPair (high low : Nat) : Char :=
  Char.ofNat (0x10000 + (high - 0xD800) * 0x400 + (low - 0xDC00))

/-- The characters that the parts of a literal spell; none, if a surrogate is left unpaired. -/
def chars? : List StringPart → Option (List Char)
  | [] => some []
  | .char c :: rest => (chars? rest).map (c :: ·)
  | .unit high :: .unit low :: rest =>
    if isHighSurrogate high && isLowSurrogate low then
      (chars? rest).map (ofPair high low :: ·)
    else if isHighSurrogate high || isLowSurrogate high then none
    else (chars? (.unit low :: rest)).map (Char.ofNat high :: ·)
  | .unit n :: rest =>
    if isHighSurrogate n || isLowSurrogate n then none
    else (chars? rest).map (Char.ofNat n :: ·)

/-- The string that the parts of a literal spell. -/
def text? (parts : List StringPart) : Option String := (chars? parts).map String.ofList

end StringPart

/-- What the lexer is in the middle of. Parts and characters read so far are in reverse. -/
inductive Lexer.Mode where
  | blank
  | word (letters : List Char)
  | numeral (chars : List Char)
  | string (parts : List StringPart)
  | escape (parts : List StringPart)
  /-- Inside the four digits of a numeric escape. -/
  | unit (parts : List StringPart) (digitsLeft : Nat) (value : Nat)

/-- The lexer's state: the tokens so far, the latest first, and what is being read. -/
structure Lexer where
  tokens : List Token
  mode : Lexer.Mode

namespace Lexer

/-- The value of a hexadecimal digit. -/
def hexValue? (c : Char) : Option Nat :=
  if c.isDigit then some (c.toNat - '0'.toNat)
  else if 'a' ≤ c ∧ c ≤ 'f' then some (c.toNat - 'a'.toNat + 10)
  else if 'A' ≤ c ∧ c ≤ 'F' then some (c.toNat - 'A'.toNat + 10)
  else none

/-- The character named by the letter after a backslash. -/
def escaped? : Char → Option Char
  | '"' => some '"'
  | '\\' => some '\\'
  | '/' => some '/'
  | 'b' => some (Char.ofNat 8)
  | 'f' => some (Char.ofNat 12)
  | 'n' => some '\n'
  | 'r' => some '\r'
  | 't' => some '\t'
  | _ => none

/-- The token of a word. -/
def word? (letters : List Char) : Option Token :=
  if letters = ['t', 'r', 'u', 'e'] then some (.bool true)
  else if letters = ['f', 'a', 'l', 's', 'e'] then some (.bool false)
  else if letters = ['n', 'u', 'l', 'l'] then some .null
  else none

/-- The blanks that may stand between tokens. -/
def isBlank (c : Char) : Bool := c = ' ' || c = '\n' || c = '\t' || c = '\r'

/-- The characters of which numerals are made. -/
def isNumeralChar (c : Char) : Bool :=
  c.isDigit || c = '-' || c = '+' || c = '.' || c = 'e' || c = 'E'

/-- A character between tokens: a blank, a mark, or the start of a longer token. -/
def start (tokens : List Token) (c : Char) : Option Lexer :=
  if isBlank c then some ⟨tokens, .blank⟩
  else if c = '[' then some ⟨.openArray :: tokens, .blank⟩
  else if c = ']' then some ⟨.closeArray :: tokens, .blank⟩
  else if c = '\x7b' then some ⟨.openObject :: tokens, .blank⟩
  else if c = '\x7d' then some ⟨.closeObject :: tokens, .blank⟩
  else if c = ',' then some ⟨.comma :: tokens, .blank⟩
  else if c = ':' then some ⟨.colon :: tokens, .blank⟩
  else if c = '"' then some ⟨tokens, .string []⟩
  else if c = '-' || c.isDigit then some ⟨tokens, .numeral [c]⟩
  else if 'a' ≤ c ∧ c ≤ 'z' then some ⟨tokens, .word [c]⟩
  else none

/-- The tokens once the word or numeral being read has ended. Inside a string the text cannot
end. -/
def settle (l : Lexer) : Option (List Token) :=
  match l.mode with
  | .blank => some l.tokens
  | .word letters => (word? letters.reverse).map (· :: l.tokens)
  | .numeral chars =>
    (Numeral.ofChars? chars.reverse).map fun numeral => .number numeral.number? :: l.tokens
  | _ => none

/-- Reads one character. -/
def step (l : Lexer) (c : Char) : Option Lexer :=
  match l.mode with
  | .string parts =>
    if c = '"' then some ⟨.string (StringPart.text? parts.reverse) :: l.tokens, .blank⟩
    else if c = '\\' then some ⟨l.tokens, .escape parts⟩
    else if c.toNat < 32 then none
    else some ⟨l.tokens, .string (.char c :: parts)⟩
  | .escape parts =>
    if c = 'u' then some ⟨l.tokens, .unit parts 4 0⟩
    else (escaped? c).map fun char => ⟨l.tokens, .string (.char char :: parts)⟩
  | .unit parts digitsLeft value =>
    (hexValue? c).map fun digit =>
      let value := 16 * value + digit
      if digitsLeft ≤ 1 then ⟨l.tokens, .string (.unit value :: parts)⟩
      else ⟨l.tokens, .unit parts (digitsLeft - 1) value⟩
  | .numeral chars =>
    if isNumeralChar c then some ⟨l.tokens, .numeral (c :: chars)⟩
    else l.settle.bind (start · c)
  | .word letters =>
    if 'a' ≤ c ∧ c ≤ 'z' then some ⟨l.tokens, .word (c :: letters)⟩
    else l.settle.bind (start · c)
  | .blank => start l.tokens c

end Lexer

/-- The tokens of a text, if it can be cut into tokens. -/
def tokens? (text : List Char) : Option (List Token) := do
  let last ← text.foldlM Lexer.step ⟨[], .blank⟩
  let tokens ← last.settle
  return tokens.reverse

end RenderPlan.Json
