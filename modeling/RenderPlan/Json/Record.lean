import RenderPlan.Json.Codec

/-!
# Records in JSON trees

A record is written as an object of its fields. It is also read from an array of its fields in
their declared order, the last of which may be left out. A field may have other spellings. Members
that are no field are skipped, and a field given twice is refused.

Some records share one object with records embedded in them. Those are read from objects only: the
reader takes its own fields and hands all other members on, and since handing on means reading,
none of these may be unreadable. For a closed record the members are gathered; one that shares the
object in turn reads its own fields as its host does.

## Main definitions

* `Json.Field`, `Json.Record`: a field's spellings, and the members found for the fields.
* `Json.Value.record?`: the members of a closed record.
* `Json.Value.sharedRecord?`: the members of a record that shares its object.
* `Json.Record.required`, `Json.Record.withDefault`, `Json.Record.optional`: reading one field.
-/

namespace RenderPlan.Json

/-- A field of a record: the name it is written under, and the others it is also read under. -/
structure Field where
  name : String
  aliases : List String := []
deriving DecidableEq

/-- The members found for the fields of a record, under the fields' own names, at most one each,
and how they reach their readers. -/
structure Record where
  source : Source
  members : List (String × Value)

/-- The field read under a member's name. -/
def fieldNamed? (fields : List Field) (name : String) : Option Field :=
  fields.find? fun field => field.name == name || field.aliases.contains name

/-- The members that belong to a field, each under the field's own name. -/
def knownMembers (fields : List Field) (members : List (String × Value)) :
    List (String × Value) :=
  members.filterMap fun member =>
    (fieldNamed? fields member.1).map fun field => (field.name, member.2)

/-- The members that belong to no field. -/
def otherMembers (fields : List Field) (members : List (String × Value)) :
    List (String × Value) :=
  members.filter fun member => (fieldNamed? fields member.1).isNone

/-- The members of the fields, unless a field is given twice. -/
def recordOf? (source : Source) (fields : List Field) (members : List (String × Value)) :
    Option Record :=
  let known := knownMembers fields members
  if (known.map Prod.fst).Nodup then some ⟨source, known⟩ else none

namespace Value

/-- The fields of a record with the given fields. -/
def record? (source : Source) (fields : List Field) : Value → Option Record
  | .object members => recordOf? source fields members
  | .array elements =>
    if elements.length ≤ fields.length then
      some ⟨source, (fields.map Field.name).zip elements⟩
    else none
  | _ => none

/-- The fields of a record that shares its object, and the members left for the records embedded
in it. -/
def sharedRecord? (source : Source) (fields : List Field) : Value → Option (Record × Value)
  | .object members =>
    let others := otherMembers fields members
    if others.all fun member => member.2.isReadable then
      (recordOf? source fields members).map fun known => (known, .object others)
    else none
  | _ => none

end Value

namespace Record

/-- The member found for a field. -/
def field? (r : Record) (name : String) : Option Value :=
  (r.members.find? fun member => member.1 == name).map Prod.snd

/-- The datum of a field that has to be given. -/
def required {α : Type} [Codec α] (r : Record) (name : String) : Option α :=
  (r.field? name).bind (decode r.source)

/-- The datum of a field that may be left out. -/
def withDefault {α : Type} [Codec α] (r : Record) (name : String) (default : α) : Option α :=
  match r.field? name with
  | none => some default
  | some v => decode r.source v

/-- The datum of a field that may be left out or be `null`. -/
def optional {α : Type} [Codec α] (r : Record) (name : String) : Option (Option α) :=
  match r.field? name with
  | none => some none
  | some v => v.optionOf? (decode r.source)

end Record

/-- The member of a field that is written only when it is present. -/
def memberIfPresent {α : Type} [Codec α] (name : String) (a : Option α) : List (String × Value) :=
  match a with
  | none => []
  | some a => [(name, encode a)]

end RenderPlan.Json
