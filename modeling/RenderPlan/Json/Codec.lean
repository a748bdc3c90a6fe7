import RenderPlan.Json.Value
import RenderPlan.Names.Set

/-!
# Codecs between trees and data

A codec writes data as a JSON tree and reads it back. Codecs of lists, options and name tables are
made from those of their parts.

A tree reaches its reader as it stands in the text, or it has been gathered for a record embedded
in another one. The two ways differ in one spelling of words.

## Main definitions

* `Json.Source`: how a tree reaches its reader.
* `Json.Codec`: the class of data with a tree form.
* `Json.Keyword`: data that are finitely many words, written as strings.
* `Json.Value.listOf?`, `Json.Value.tableOf?`: reading containers.
-/

namespace RenderPlan.Json

/-- How a tree reaches its reader. -/
inductive Source where
  /-- As it stands in the text. -/
  | direct
  /-- Gathered from the members of one record for a closed record embedded in it. -/
  | gathered
deriving DecidableEq

/-- Data with a form as a JSON tree. Not every tree is the form of a datum. -/
class Codec (α : Type) where
  encode : α → Value
  decode : Source → Value → Option α

export Codec (encode decode)

/-- Finitely many data, each written as a word of its own. -/
class Keyword (α : Type) where
  all : List α
  word : α → String

namespace Value

/-- The string that the tree is. -/
def string? : Value → Option String
  | .string s => some s
  | _ => none

/-- The truth value that the tree is. -/
def bool? : Value → Option Bool
  | .bool b => some b
  | _ => none

/-- The integer of the tree when it is at least zero and below `limit`. -/
def natBelow? (limit : Nat) : Value → Option Nat
  | .number (.integer n) => if 0 ≤ n ∧ n < limit then some n.toNat else none
  | _ => none

/-- The tree's number as a 32-bit word. -/
def single? : Value → Option Binary32
  | .number n => some n.toSingle
  | _ => none

/-- The tree's number as a 64-bit word. -/
def double? : Value → Option Binary64
  | .number n => some n.toDouble
  | _ => none

/-- The elements of an array, each read by `read`. -/
def listOf? {α : Type} (read : Value → Option α) : Value → Option (List α)
  | .array elements => elements.mapM read
  | _ => none

/-- The members of an object, each read by `read`; of members with the same name the last counts,
but every one has to be readable. -/
def tableOf? {α : Type} (read : Value → Option α) : Value → Option (NameTable α)
  | .object members =>
    (members.mapM fun member => (read member.2).map fun value => (member.1, value)).map
      NameTable.ofList
  | _ => none

/-- What `read` makes of the tree, where `null` stands for absence. -/
def optionOf? {α : Type} (read : Value → Option α) : Value → Option (Option α)
  | .null => some none
  | v => (read v).map some

/-- The datum written as `word`. -/
def ofWord? {α : Type} [Keyword α] (word : String) : Option α :=
  (Keyword.all (α := α)).find? fun a => Keyword.word a == word

/-- The datum whose word the tree is: a string, or an object whose only member bears the word as
its name and is `null`, or, in a gathered tree, the empty object. -/
def keyword? {α : Type} [Keyword α] (source : Source) : Value → Option α
  | .string word => ofWord? word
  | .object [(word, .null)] => ofWord? word
  | .object [(word, .object [])] =>
    match source with
    | .direct => none
    | .gathered => ofWord? word
  | _ => none

end Value

instance {α : Type} [Keyword α] : Codec α where
  encode a := .string (Keyword.word a)
  decode := Value.keyword?

instance : Codec String where
  encode := .string
  decode _ := Value.string?

instance : Codec Bool where
  encode := .bool
  decode _ := Value.bool?

instance : Codec Binary32 where
  encode x := .number (.single x)
  decode _ := Value.single?

instance : Codec UInt32 where
  encode n := .number (.integer n.toNat)
  decode _ v := (v.natBelow? UInt32.size).map UInt32.ofNat

instance : Codec UInt8 where
  encode n := .number (.integer n.toNat)
  decode _ v := (v.natBelow? UInt8.size).map UInt8.ofNat

instance {α : Type} [Codec α] : Codec (List α) where
  encode l := .array (l.map encode)
  decode source := Value.listOf? (decode source)

instance {α : Type} [Codec α] : Codec (NameTable α) where
  encode t := .object (t.entries.map fun entry => (entry.1, encode entry.2))
  decode source := Value.tableOf? (decode source)

instance : Codec NameSet where
  encode s := encode s.toList
  decode _ v := (Value.listOf? Value.string? v).map NameSet.ofList

/-- The tree of a value that may be absent. -/
def encodeOption {α : Type} [Codec α] : Option α → Value
  | none => .null
  | some a => encode a

end RenderPlan.Json
