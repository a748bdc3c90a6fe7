import RenderPlan.Number.Rounding

/-!
# JSON trees

A JSON tree keeps the members of its objects in the order of the text, repeated names included,
because what a repetition means is for the reader of a record or a table to say.

Some text is grammatical and yet stands for no tree: a number beyond the 64-bit format, a string or
a member name with an unpaired surrogate, a container nested too deeply. Such text may be skipped
over but not read, and is kept as `Value.unreadable`.

## Main definitions

* `Json.Number`, `Json.Value`: the trees.
* `Json.Value.isReadable`: no part of the tree is unreadable.
* `Json.Value.reread`: the tree that reading the written text gives back, in which numbers that are
  not finite have become `null`.
-/

namespace RenderPlan.Json

/-- A number of a JSON tree, tagged with the type it has or is to be written with. Reading gives
integers and 64-bit words only. -/
inductive Number where
  | integer (n : Int)
  | single (x : Binary32)
  | double (x : Binary64)
deriving DecidableEq

namespace Number

/-- The number as a 32-bit word. An integer is rounded once, without a detour over 64 bits. -/
def toSingle : Number → Binary32
  | .integer n => .ofInt n
  | .single x => x
  | .double x => x.convert

/-- The number as a 64-bit word. -/
def toDouble : Number → Binary64
  | .integer n => .ofInt n
  | .single x => x.convert
  | .double x => x

/-- The number can be written. -/
def isFinite : Number → Bool
  | .integer _ => true
  | .single x => x.isFinite
  | .double x => x.isFinite

end Number

/-- A JSON tree. -/
inductive Value where
  | null
  | bool (b : Bool)
  | number (n : Number)
  | string (s : String)
  | array (elements : List Value)
  | object (members : List (String × Value))
  /-- Grammatical text that stands for no tree. -/
  | unreadable

instance : Inhabited Value := ⟨.null⟩

namespace Value

mutual

/-- No part of the tree is unreadable. -/
def isReadable : Value → Bool
  | .array elements => allReadable elements
  | .object members => allMembersReadable members
  | .unreadable => false
  | _ => true

/-- Every tree of a list is readable. -/
def allReadable : List Value → Bool
  | [] => true
  | v :: rest => v.isReadable && allReadable rest

/-- Every member's value is readable. -/
def allMembersReadable : List (String × Value) → Bool
  | [] => true
  | (_, v) :: rest => v.isReadable && allMembersReadable rest

end

mutual

/-- The tree that reading the written text gives back. A number that is not finite is written as
`null`; everything else reads back as it was. -/
def reread : Value → Value
  | .number n => if n.isFinite then .number n else .null
  | .array elements => .array (rereadAll elements)
  | .object members => .object (rereadMembers members)
  | v => v

/-- Every tree of a list as it reads back. -/
def rereadAll : List Value → List Value
  | [] => []
  | v :: rest => v.reread :: rereadAll rest

/-- Every member as it reads back. -/
def rereadMembers : List (String × Value) → List (String × Value)
  | [] => []
  | (name, v) :: rest => (name, v.reread) :: rereadMembers rest

end

theorem rereadAll_eq_map : ∀ elements : List Value, rereadAll elements = elements.map reread
  | [] => rfl
  | v :: rest => by rw [rereadAll, rereadAll_eq_map rest, List.map_cons]

theorem rereadMembers_eq_map : ∀ members : List (String × Value),
    rereadMembers members = members.map fun member => (member.1, member.2.reread)
  | [] => rfl
  | (name, v) :: rest => by rw [rereadMembers, rereadMembers_eq_map rest, List.map_cons]

theorem allReadable_eq_all : ∀ elements : List Value,
    allReadable elements = elements.all isReadable
  | [] => rfl
  | v :: rest => by rw [allReadable, allReadable_eq_all rest, List.all_cons]

theorem allMembersReadable_eq_all : ∀ members : List (String × Value),
    allMembersReadable members = members.all fun member => member.2.isReadable
  | [] => rfl
  | (name, v) :: rest => by
    rw [allMembersReadable, allMembersReadable_eq_all rest, List.all_cons]

end Value

end RenderPlan.Json
