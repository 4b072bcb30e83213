import PhotoIntake.History.Basic
import PhotoIntake.Json.Reader
import PhotoIntake.Json.Writer
import PhotoIntake.Worker.Message

/-!
# The file of a history

The file of a store that stands in for a database.  It starts with a line that tells what it is.
The rows follow as a JSON array, each with name, size, time, target and download time in this order.
-/

namespace PhotoIntake.History

/-- The first line of a history file. -/
def heading : List Char :=
  "Record of downloads, version 1\n".toList

/-- The written form of a row. -/
def Row.toJson (row : Row) : Json :=
  .array [.text row.key.name, Json.ofNat row.key.size, Json.ofNat row.key.modified.toNat,
    .text row.target, .text row.time]

/-- The row of an array. -/
def Row.ofJson? : Json → Option Row
  | .array [name, .number size, modified, target, time] => do
    let name ← name.text?
    let size ← size.toNat?
    let modified ← modified.count?
    let target ← target.text?
    let time ← time.text?
    return ⟨⟨name, size, UInt64.ofNat modified⟩, target, time⟩
  | _ => none

/-- The text of a history. -/
def text (h : History) : String :=
  String.ofList heading ++ (Json.array (h.rows.map Row.toJson)).write

/-- The history of a text. -/
def ofText? (s : String) : Option History :=
  let cs := s.toList
  if heading.isPrefixOf cs then
    ((Json.readChars? (cs.drop heading.length)).bind (Json.listOf? Row.ofJson?)).map
      fun rows => ⟨rows⟩
  else none

end PhotoIntake.History
