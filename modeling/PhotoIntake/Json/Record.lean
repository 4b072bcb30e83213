import PhotoIntake.Json.Basic

/-!
# Records in JSON

A record is written as an object with one member a field.  It may also be written as the array of
its fields in their order.  In an object, members that are no field are skipped, no field may be
given twice, and a field that may be absent may be left out; in an array only fields with a
default may be left out, at the end.
-/

namespace PhotoIntake.Json

/-- The fields of a record that were given. -/
structure Record where
  byPosition : Bool
  given : List (String × Json)

namespace Record

/-- The members that are fields, if none is repeated. -/
def ofMembers? (fields : List String) (members : List (String × Json)) : Option Record :=
  let given := members.filter fun m => fields.contains m.1
  if (given.map (·.1)).Nodup then some ⟨false, given⟩ else none

/-- The record that a value writes. -/
def ofJson? (fields : List String) : Json → Option Record
  | .object members => ofMembers? fields members
  | .array items =>
    if items.length ≤ fields.length then some ⟨true, fields.zip items⟩ else none
  | _ => none

/-- A field that has to be given. -/
def required {α : Type} (r : Record) (field : String) (read : Json → Option α) : Option α :=
  (r.given.lookup field).bind read

/-- A field that is null or, in an object, left out when it has no value. -/
def optional {α : Type} (r : Record) (field : String) (read : Json → Option α) :
    Option (Option α) :=
  match r.given.lookup field with
  | some v => nullable? read v
  | none => if r.byPosition then none else some none

/-- A field with a default. -/
def defaulted {α : Type} (r : Record) (field : String) (read : Json → Option α) (default : α) :
    Option α :=
  match r.given.lookup field with
  | some v => read v
  | none => some default

end Record

/-- The name of a case without content, given alone or with null. -/
def bareCase? : Json → Option String
  | .text name => some name
  | .object [(name, .null)] => some name
  | _ => none

/-- The content of a case that has some. -/
def caseContent? : Json → Option (String × Json)
  | .object [(name, content)] => some (name, content)
  | _ => none

end PhotoIntake.Json
