/-!
# TOML values

What a TOML document says: a table of named values.  Floating numbers and moments keep the form
in which they were written, because nothing here computes with them.
-/

namespace PhotoIntake

/-- A TOML value.  The members of a table have different names. -/
inductive Toml where
  | text (s : String)
  | integer (n : Int)
  | float (written : String)
  | bool (b : Bool)
  | moment (written : String)
  | array (items : List Toml)
  | table (members : List (String × Toml))

namespace Toml

/-- The text of a value that is a text. -/
def text? : Toml → Option String
  | .text s => some s
  | _ => none

/-- The truth value of a value that is one. -/
def bool? : Toml → Option Bool
  | .bool b => some b
  | _ => none

/-- The count of a value that is an integer and not negative. -/
def count? : Toml → Option Nat
  | .integer (.ofNat n) => some n
  | _ => none

/-- The value is an array or a table with nothing in it. -/
def isBare : Toml → Bool
  | .array items => items.isEmpty
  | .table members => members.isEmpty
  | _ => false

/-- The name of a case without content: the name itself, or the only name in a table, with
nothing under it. -/
def case? : Toml → Option String
  | .text s => some s
  | .table [(name, content)] => if content.isBare then some name else none
  | _ => none

end Toml

end PhotoIntake
