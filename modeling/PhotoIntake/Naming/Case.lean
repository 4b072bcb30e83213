import PhotoIntake.Text.Casing

/-!
# Letter case of names

What a template does to the case of a file name or of an extension.
-/

namespace PhotoIntake.Naming

/-- A case policy. -/
inductive Case where
  | original
  | upper
  | lower
  deriving DecidableEq

namespace Case

/-- The policies in the order in which they are offered. -/
def all : List Case :=
  [original, upper, lower]

/-- The policy where none is given. -/
def standard : Case :=
  lower

/-- The name of the policy, written in the case that it gives. -/
def title : Case → String
  | original => "Original Case"
  | upper => "UPPERCASE"
  | lower => "lowercase"

/-- The policy with the given name. -/
def ofTitle? (title : String) : Option Case :=
  all.find? (·.title == title)

/-- A text in the case of the policy. -/
def apply (case : Case) (s : String) : String :=
  match case with
  | original => s
  | upper => Text.upper s
  | lower => Text.lower s

end Case

end PhotoIntake.Naming
