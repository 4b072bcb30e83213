/-!
# Printed lines

What the program prints: lines, some of them marked, and a headline in a box.
-/

namespace PhotoIntake.Console

/-- A printed line.  A line that ends a session tells how long the session took. -/
inductive Line where
  | plain (s : String)
  | finished (message : String)
  deriving DecidableEq

namespace Line

/-- The line of a success. -/
def success (message : String) : Line :=
  plain ("  ✓ " ++ message)

/-- The line of a fact. -/
def fact (message : String) : Line :=
  plain ("  • " ++ message)

/-- The line of a warning. -/
def warning (message : String) : Line :=
  plain ("  ⚠ " ++ message)

/-- An empty line. -/
def empty : Line :=
  plain ""

/-- The text of a line, given the text of the elapsed time. -/
def text (elapsed : String) : Line → String
  | plain s => s
  | finished message => "  ✓ " ++ message ++ " (" ++ elapsed ++ ")"

end Line

/-- The characters of a title in the middle of a field; an odd blank stands behind it. -/
def centred (width : Nat) (title : List Char) : List Char :=
  let free := width - title.length
  List.replicate (free / 2) ' ' ++ title ++ List.replicate (free - free / 2) ' '

/-- The number of characters between the corners of a headline's box. -/
def boxWidth : Nat := 66

/-- The number of characters that a title in a box is given. -/
def titleWidth : Nat := 64

/-- A headline: a title in a box, between empty lines. -/
def headline (title : String) : List Line :=
  let edge := String.ofList (List.replicate boxWidth '═')
  [.empty, .plain ("╔" ++ edge ++ "╗"),
    .plain ("║" ++ String.ofList (centred titleWidth title.toList) ++ "║"),
    .plain ("╚" ++ edge ++ "╝"), .empty]

end PhotoIntake.Console
