import Brokerage.Json.Basic

namespace Brokerage.Record

/-- A field of a record: its name and the other names it is read under. -/
structure Field where
  name : String
  aliases : List String

/-- A field with one name. -/
def Field.named (name : String) : Field := ⟨name, []⟩

/-- The field is read from members of this name. -/
def Field.answers (f : Field) (name : String) : Bool :=
  name = f.name || f.aliases.contains name

/-- The name of the field that a member of the given name belongs to, if one
    does. -/
def fieldName? (fields : List Field) (name : String) : Option String :=
  (fields.find? (·.answers name)).map Field.name

/-- The members that belong to fields, under the fields' own names. -/
def knownMembers (fields : List Field) (members : List (String × Json)) : List (String × Json) :=
  members.filterMap fun (name, value) => (fieldName? fields name).map fun field => (field, value)

/-- The names differ from one another. -/
def distinctNames : List (String × Json) → Bool
  | [] => true
  | (name, _) :: rest => (rest.lookup name).isNone && distinctNames rest

/-- The fields of the record that an object holds. A field given twice, under
    two of its names, is refused. -/
def ofObject? (fields : List Field) (members : List (String × Json)) : Option (List (String × Json)) :=
  let known := knownMembers fields members
  if distinctNames known then some known else none

/-- The fields of the record that a list holds. -/
def ofItems? (fields : List Field) (items : List Json) : Option (List (String × Json)) :=
  if items.length ≤ fields.length then some ((fields.map Field.name).zip items) else none

/-- The fields of the record that a value holds: an object, whose unknown
    members are passed over, or an array of the fields in the order they are
    declared in, trailing ones left out. -/
def read? (fields : List Field) : Json → Option (List (String × Json))
  | .object members => ofObject? fields members
  | .array items => ofItems? fields items
  | _ => none

variable {α : Type}

/-- A field that must be there. -/
def required (decode : Json → Option α) (name : String) (members : List (String × Json)) : Option α :=
  (members.lookup name).bind decode

/-- A field that may be left out or null. -/
def optional (decode : Json → Option α) (name : String) (members : List (String × Json)) : Option (Option α) :=
  match members.lookup name with
  | none | some .null => some none
  | some v => (decode v).map some

/-- A field that has a value of its own when it is left out; null is not
    that. -/
def defaulted (default : α) (decode : Json → Option α) (name : String) (members : List (String × Json)) : Option α :=
  match members.lookup name with
  | none => some default
  | some v => decode v

/-- A member that is written. -/
def member (name : String) (value : Json) : List (String × Json) :=
  [(name, value)]

/-- A member that is written only if there is a value. -/
def memberIfSome (encode : α → Json) (name : String) : Option α → List (String × Json)
  | some v => [(name, encode v)]
  | none => []

end Brokerage.Record
