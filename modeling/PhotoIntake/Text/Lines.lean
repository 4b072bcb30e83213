/-!
# Lines

A stream of bytes is cut into lines at its line feeds.  What follows the last of them is a line of
its own, unless it is empty.
-/

namespace PhotoIntake.Text

/-- The line feed. -/
def lineFeed : UInt8 :=
  10

/-- The lines of a stream, without their line feeds. -/
def lines : List UInt8 → List (List UInt8)
  | [] => []
  | b :: rest =>
    if b = lineFeed then [] :: lines rest
    else
      match lines rest with
      | [] => [[b]]
      | line :: others => (b :: line) :: others

/-- The text of bytes that are UTF-8. -/
def ofBytes? (bytes : List UInt8) : Option String :=
  String.fromUTF8? ⟨bytes.toArray⟩

end PhotoIntake.Text
