import RenderPlan.Json.Value
import RenderPlan.Number.Layout

/-!
# Writing JSON text

A tree is written compactly, without blanks, or indented by two spaces a level. Members keep their
order.

## Main definitions

* `Json.singleLayout`, `Json.doubleLayout`: how numbers look.
* `Json.quote`: the text of a string.
* `Json.Value.compact`, `Json.Value.pretty`: the text of a tree.
-/

namespace RenderPlan.Json

/-- A 32-bit number is plain from a millionth up to the trillions and always shows a fraction. -/
def singleLayout : NumberLayout where
  isPlain e := -6 ≤ e && e ≤ 12
  showsFraction := true
  tie := .toEven

/-- A 64-bit number is plain from a hundred thousandth up to sixteen digits and always shows a
fraction. -/
def doubleLayout : NumberLayout where
  isPlain e := -5 ≤ e && e ≤ 15
  showsFraction := true
  tie := .toEven

/-- The text of a number. One that is not finite is written as `null`. -/
def Number.text : Number → String
  | .integer n => toString n
  | .single x => if x.isFinite then x.text singleLayout else "null"
  | .double x => if x.isFinite then x.text doubleLayout else "null"

/-- A hexadecimal digit, in lower case. -/
def hexDigit (n : Nat) : Char := Nat.digitChar (n % 16)

/-- A character inside a quoted string. Only the quote, the backslash and the controls below space
are escaped. -/
def escape (c : Char) : List Char :=
  match c with
  | '"' => ['\\', '"']
  | '\\' => ['\\', '\\']
  | '\n' => ['\\', 'n']
  | '\r' => ['\\', 'r']
  | '\t' => ['\\', 't']
  | c =>
    if c.toNat = 8 then ['\\', 'b']
    else if c.toNat = 12 then ['\\', 'f']
    else if c.toNat < 32 then ['\\', 'u', '0', '0', hexDigit (c.toNat / 16), hexDigit c.toNat]
    else [c]

/-- The text of a string, with its quotes. -/
def quote (s : String) : String := String.ofList ('"' :: s.toList.flatMap escape ++ ['"'])

/-- A line break followed by two spaces for each level. -/
def newline (level : Nat) : String := String.ofList ('\n' :: List.replicate (2 * level) ' ')

namespace Value

mutual

/-- The text of a tree without blanks. -/
def compact : Value → String
  | .null => "null"
  | .bool b => if b then "true" else "false"
  | .number n => n.text
  | .string s => quote s
  | .array elements => "[" ++ compactElements elements ++ "]"
  | .object members => "\x7b" ++ compactMembers members ++ "\x7d"
  | .unreadable => "null"

/-- The elements of an array, parted by commas. -/
def compactElements : List Value → String
  | [] => ""
  | [v] => v.compact
  | v :: rest => v.compact ++ "," ++ compactElements rest

/-- The members of an object, parted by commas. -/
def compactMembers : List (String × Value) → String
  | [] => ""
  | [(name, v)] => quote name ++ ":" ++ v.compact
  | (name, v) :: rest => quote name ++ ":" ++ v.compact ++ "," ++ compactMembers rest

end

mutual

/-- The indented text of a tree that stands `level` levels deep. -/
def prettyAt (level : Nat) : Value → String
  | .array elements@(_ :: _) =>
    "[" ++ newline (level + 1) ++ prettyElements (level + 1) elements ++ newline level ++ "]"
  | .object members@(_ :: _) =>
    "\x7b" ++ newline (level + 1) ++ prettyMembers (level + 1) members ++ newline level ++ "\x7d"
  | v => v.compact

/-- The elements of an array, each on a line of its own. -/
def prettyElements (level : Nat) : List Value → String
  | [] => ""
  | [v] => v.prettyAt level
  | v :: rest => v.prettyAt level ++ "," ++ newline level ++ prettyElements level rest

/-- The members of an object, each on a line of its own. -/
def prettyMembers (level : Nat) : List (String × Value) → String
  | [] => ""
  | [(name, v)] => quote name ++ ": " ++ v.prettyAt level
  | (name, v) :: rest =>
    quote name ++ ": " ++ v.prettyAt level ++ "," ++ newline level ++ prettyMembers level rest

end

/-- The text of a tree, indented by two spaces a level; empty containers stay on one line. -/
def pretty (v : Value) : String := v.prettyAt 0

end Value

end RenderPlan.Json
