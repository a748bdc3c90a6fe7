import RenderPlan.Json.Token

/-!
# Reading JSON text

The tree is built from the tokens one token at a time: `Builder.step` is the whole grammar of
arrays and objects, and reading is folding it over the tokens.

## Main definitions

* `Json.Builder`: the containers around the place being read, and what may follow there.
* `Json.read?`: the tree of a text, if the text is grammatical.
-/

namespace RenderPlan.Json

/-- A container being read; elements and members so far are in reverse. A member name is absent
when its literal has an unpaired surrogate. -/
inductive Builder.Container where
  | array (elements : List Value)
  | object (members : List (Option String × Value))

/-- What may follow at the place being read. -/
inductive Builder.Phase where
  | value
  /-- A value or the end of an array that has just begun. -/
  | firstElement
  | memberName
  /-- A member name or the end of an object that has just begun. -/
  | firstMemberName
  | colon (name : Option String)
  /-- A member's value, its name having been read. -/
  | memberValue (name : Option String)
  /-- A value has just been read. -/
  | done (v : Value)

/-- The state of reading between two tokens: the containers around the place, innermost first, and
for each container inside an object the member name it stands under. -/
structure Builder where
  around : List (Builder.Container × Option (Option String))
  phase : Builder.Phase

namespace Builder

/-- Containers nested more deeply than this cannot be read, only skipped. -/
def deepestReadable : Nat := 127

/-- The object with the given members, listed in reverse. -/
def objectOf (members : List (Option String × Value)) : Value :=
  match members.reverse.mapM fun member => member.1.map fun name => (name, member.2) with
  | some members => .object members
  | none => .unreadable

/-- The place inside these containers is too deep for a container to be read. -/
def isTooDeep {α : Type} (around : List α) : Bool := !(around.drop (deepestReadable - 1)).isEmpty

/-- The tree of a container that has ended inside the given others. -/
def close {α : Type} (around : List α) (container : Container) : Value :=
  if isTooDeep around then .unreadable
  else
    match container with
    | .array elements => .array elements.reverse
    | .object members => objectOf members

/-- The member name that the next value or container stands under, if it stands in an object. -/
def pendingName (b : Builder) : Option (Option String) :=
  match b.phase with
  | .memberValue name => some name
  | _ => none

/-- The container with a finished value added under the name pending for it. -/
def add (container : Container) (name : Option (Option String)) (v : Value) : Container :=
  match container, name with
  | .array elements, _ => .array (v :: elements)
  | .object members, some name => .object ((name, v) :: members)
  | .object members, none => .object ((none, v) :: members)

/-- The place after a value has been read under the name pending for it: inside the innermost
container, or at the end of the text. -/
def finish (around : List (Container × Option (Option String))) (name : Option (Option String))
    (v : Value) : Builder :=
  match around with
  | [] => ⟨[], .done v⟩
  | (container, outer) :: rest => ⟨(add container name v, outer) :: rest, .done v⟩

/-- A value may begin at the place being read. -/
def expectsValue : Phase → Bool
  | .value | .firstElement | .memberValue _ => true
  | _ => false

/-- The end of the innermost container. -/
def closeInnermost (b : Builder) : Option Builder :=
  match b.around with
  | [] => none
  | (container, outer) :: rest => some (finish rest outer (close rest container))

/-- Reads one token. -/
def step (b : Builder) (token : Token) : Option Builder :=
  match token, b.phase with
  | .closeArray, .firstElement => b.closeInnermost
  | .closeObject, .firstMemberName => b.closeInnermost
  | .closeArray, .done _ =>
    match b.around with
    | (.array _, _) :: _ => b.closeInnermost
    | _ => none
  | .closeObject, .done _ =>
    match b.around with
    | (.object _, _) :: _ => b.closeInnermost
    | _ => none
  | .comma, .done _ =>
    match b.around with
    | (.array _, _) :: _ => some ⟨b.around, .value⟩
    | (.object _, _) :: _ => some ⟨b.around, .memberName⟩
    | [] => none
  | .string name, .memberName | .string name, .firstMemberName => some ⟨b.around, .colon name⟩
  | .colon, .colon name => some ⟨b.around, .memberValue name⟩
  | token, phase =>
    if !expectsValue phase then none
    else
      match token with
      | .openArray => some ⟨(.array [], b.pendingName) :: b.around, .firstElement⟩
      | .openObject => some ⟨(.object [], b.pendingName) :: b.around, .firstMemberName⟩
      | .null => some (finish b.around b.pendingName .null)
      | .bool x => some (finish b.around b.pendingName (.bool x))
      | .number (some n) => some (finish b.around b.pendingName (.number n))
      | .string (some s) => some (finish b.around b.pendingName (.string s))
      | .number none | .string none => some (finish b.around b.pendingName .unreadable)
      | _ => none

/-- The tree, once the whole text has been read. -/
def result? (b : Builder) : Option Value :=
  match b.around, b.phase with
  | [], .done v => some v
  | _, _ => none

end Builder

/-- The tree of a JSON text; none, if the text is not grammatical. -/
def read? (text : String) : Option Value := do
  let tokens ← tokens? text.toList
  let last ← tokens.foldlM Builder.step ⟨[], .value⟩
  last.result?

end RenderPlan.Json
