import PhotoIntake.Decimal.Whole
import PhotoIntake.Toml.Basic
import PhotoIntake.Toml.Quoting

/-!
# Sections

A section is a table of plain fields.  It may be left out, and so may any of its fields.  It is
written under a header of its own, one line a field; it is read from any table, from an array that
gives the fields in their order, and from a moment, which gives none.
-/

namespace PhotoIntake.Toml

/-! ## Reading -/

/-- The fields of a section that were given. -/
structure Given where
  fields : List (String × Toml)

namespace Given

/-- The fields that a value gives. -/
def ofToml? (names : List String) : Toml → Option Given
  | .table members => some ⟨members⟩
  | .array items => some ⟨names.zip items⟩
  | .moment _ => some ⟨[]⟩
  | _ => none

/-- A field with a default. -/
def get {α : Type} (g : Given) (name : String) (read : Toml → Option α) (default : α) : Option α :=
  match g.fields.lookup name with
  | some v => read v
  | none => some default

end Given

/-! ## Writing -/

/-- A value without parts. -/
inductive Plain where
  | text (s : String)
  | count (n : Nat)
  | bool (b : Bool)
  deriving DecidableEq

namespace Plain

/-- The value can be written: integers have 64 bits, one of them for the sign. -/
def isWritable : Plain → Bool
  | count n => n < Decimal.wordBound 63
  | _ => true

/-- The form of a value. -/
def chars : Plain → List Char
  | text s => quote s
  | count n => Decimal.digits n
  | bool true => ['t', 'r', 'u', 'e']
  | bool false => ['f', 'a', 'l', 's', 'e']

end Plain

/-- A section to be written: its name and its fields in their order. -/
structure Section where
  name : String
  fields : List (String × Plain)

namespace Section

/-- The lines of a section. -/
def chars (s : Section) : List Char :=
  '[' :: s.name.toList ++ [']', '\n'] ++ s.fields.flatMap fun (name, v) =>
    name.toList ++ [' ', '=', ' '] ++ v.chars ++ ['\n']

/-- The text of sections, with an empty line between two of them; none if some value cannot be
written. -/
def write? (sections : List Section) : Option String :=
  if sections.all fun s => s.fields.all fun f => f.2.isWritable then
    some (String.ofList (['\n'].intercalate (sections.map chars)))
  else none

end Section

end PhotoIntake.Toml
