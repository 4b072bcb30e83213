import PhotoIntake.Toml.Basic

/-!
# Putting a table together

A table grows by assignments, whose keys may lead through tables below it, and by headers.  No
name is given a value twice, and no table is stated twice.  What may still be added to a table
depends on how it came to be there.
-/

namespace PhotoIntake.Toml

/-- How a table came to be: under a header of its own, on the way of a longer header, or on the
way of a dotted key. -/
inductive Origin where
  | stated
  | implied
  | dotted
  deriving DecidableEq

/-- What stands under a name in a table that grows: a finished value, a table, or a list of
tables, of which the last one grows. -/
inductive Part where
  | value (v : Toml)
  | table (origin : Origin) (members : List (String × Part))
  | tables (earlier : List (List (String × Part))) (last : List (String × Part))

namespace Part

mutual

/-- The finished value of a part. -/
def toToml : Part → Toml
  | value v => v
  | table _ members => .table (finish members)
  | tables earlier last => .array (finishAll earlier ++ [.table (finish last)])

/-- The finished members of a table. -/
def finish : List (String × Part) → List (String × Toml)
  | [] => []
  | (name, p) :: rest => (name, toToml p) :: finish rest

/-- The finished tables of a list. -/
def finishAll : List (List (String × Part)) → List Toml
  | [] => []
  | members :: rest => .table (finish members) :: finishAll rest

end

/-- The members with a part under a name. -/
def put (members : List (String × Part)) (name : String) (p : Part) : List (String × Part) :=
  members.filter (·.1 != name) ++ [(name, p)]

/-- Give a value to a dotted key.  The names before the last one lead through tables that are made
for it or may still grow by dotted keys. -/
def assign? (v : Toml) : List String → List (String × Part) → Option (List (String × Part))
  | [], _ => none
  | [name], members =>
    if (members.lookup name).isSome then none else some (members ++ [(name, value v)])
  | name :: next :: rest, members =>
    match members.lookup name with
    | none => (assign? v (next :: rest) []).map fun inner => put members name (table .dotted inner)
    | some (table origin inner) =>
      if origin = .stated || (rest.isEmpty && origin != .dotted) then none
      else (assign? v (next :: rest) inner).map fun inner => put members name (table origin inner)
    | some (tables earlier last) =>
      if rest.isEmpty then none
      else (assign? v (next :: rest) last).map fun last => put members name (tables earlier last)
    | some (value _) => none

/-- Change the table to which names lead.  Tables that are missing on the way are made. -/
def within? (change : List (String × Part) → Option (List (String × Part))) :
    List String → List (String × Part) → Option (List (String × Part))
  | [], members => change members
  | name :: rest, members =>
    match members.lookup name with
    | none => (within? change rest []).map fun inner => put members name (table .implied inner)
    | some (table origin inner) =>
      (within? change rest inner).map fun inner => put members name (table origin inner)
    | some (tables earlier last) =>
      (within? change rest last).map fun last => put members name (tables earlier last)
    | some (value _) => none

/-- State a table under a name. -/
def openTable? (name : String) (members : List (String × Part)) : Option (List (String × Part)) :=
  match members.lookup name with
  | none => some (put members name (table .stated []))
  | some (table .implied inner) => some (put members name (table .stated inner))
  | some _ => none

/-- Add a table to the list of tables under a name. -/
def openItem? (name : String) (members : List (String × Part)) : Option (List (String × Part)) :=
  match members.lookup name with
  | none => some (put members name (tables [] []))
  | some (tables earlier last) => some (put members name (tables (earlier ++ [last]) []))
  | some _ => none

end Part

/-- The table that assignments to dotted keys make. -/
def ofAssignments? (assignments : List (List String × Toml)) : Option Toml :=
  (assignments.foldlM (fun members (key, v) => Part.assign? v key members) []).map fun members =>
    .table (Part.finish members)

/-- A statement of a document: a value for a key, or a header. -/
inductive Statement where
  | assign (key : List String) (v : Toml)
  | table (key : List String)
  | item (key : List String)

/-- A document that grows: its members, and the names that lead to the table whose header was
read last. -/
structure Draft where
  members : List (String × Part)
  here : List String

namespace Draft

/-- The document without statements. -/
def empty : Draft :=
  ⟨[], []⟩

/-- The document with a header, whose last name is opened in the table before it. -/
def state? (d : Draft) (key : List String)
    (opened : String → List (String × Part) → Option (List (String × Part))) : Option Draft :=
  key.getLast?.bind fun name =>
    (Part.within? (opened name) key.dropLast d.members).map fun m => ⟨m, key⟩

/-- The document with one more statement. -/
def add? (d : Draft) : Statement → Option Draft
  | .assign key v => (Part.within? (Part.assign? v key) d.here d.members).map fun m => ⟨m, d.here⟩
  | .table key => d.state? key Part.openTable?
  | .item key => d.state? key Part.openItem?

end Draft

/-- The table that statements make. -/
def ofStatements? (statements : List Statement) : Option Toml :=
  (statements.foldlM Draft.add? Draft.empty).map fun d => .table (Part.finish d.members)

end PhotoIntake.Toml
