import PhotoIntake.Calendar.Notation
import PhotoIntake.Image.Basic
import PhotoIntake.Json.Record

/-!
# Images in JSON
-/

namespace PhotoIntake

namespace Calendar.DateTime

/-- The written form of a date-time. -/
def toJson (t : DateTime) : Json :=
  .text (t.text .letterT)

/-- The date-time of a text. -/
def ofJson? (v : Json) : Option DateTime :=
  v.text?.bind (read? .letterT)

end Calendar.DateTime

namespace Json

/-- Null for no value. -/
def ofOption {α : Type} (f : α → Json) : Option α → Json
  | some a => f a
  | none => .null

end Json

namespace CaptureDate

/-- The names of the fields. -/
def fields : List String :=
  ["year", "month", "day", "hour", "minute", "second"]

/-- The written form of a capture date. -/
def toJson (d : CaptureDate) : Json :=
  .object [
    ("year", .text d.year), ("month", .text d.month), ("day", .text d.day),
    ("hour", .text d.hour), ("minute", .text d.minute), ("second", .text d.second)]

/-- The capture date of a record. -/
def ofJson? (v : Json) : Option CaptureDate := do
  let r ← Json.Record.ofJson? fields v
  let field (name : String) : Option String := r.required name Json.text?
  let year ← field "year"
  let month ← field "month"
  let day ← field "day"
  let hour ← field "hour"
  let minute ← field "minute"
  let second ← field "second"
  return { year, month, day, hour, minute, second }

end CaptureDate

namespace DownloadMark

/-- The written form of a mark. -/
def toJson : DownloadMark → Json
  | never => .text "None"
  | matched path time => .object [("Matched", .object [
      ("path", .text path), ("time", Json.ofOption Calendar.DateTime.toJson time)])]
  | marked path time => .object [("Marked", .object [
      ("path", .text path), ("time", time.toJson)])]

/-- The mark of a case. -/
def ofJson? (v : Json) : Option DownloadMark :=
  if v.bareCase? = some "None" then some never
  else
    match Json.caseContent? v with
    | some ("Matched", content) => do
      let r ← Json.Record.ofJson? ["path", "time"] content
      let path ← r.required "path" Json.text?
      let time ← r.optional "time" Calendar.DateTime.ofJson?
      return matched path time
    | some ("Marked", content) => do
      let r ← Json.Record.ofJson? ["path", "time"] content
      let path ← r.required "path" Json.text?
      let time ← r.required "time" Calendar.DateTime.ofJson?
      return marked path time
    | _ => none

end DownloadMark

namespace Image

/-- The names of the fields. -/
def fields : List String :=
  ["name", "path", "extension", "stem", "datetime", "session", "is_selected", "download_info"]

/-- The written form of an image. -/
def toJson (image : Image) : Json :=
  .object [
    ("name", .text image.name),
    ("path", .text image.path),
    ("extension", .text image.extension),
    ("stem", .text image.stem),
    ("datetime", Json.ofOption CaptureDate.toJson image.captured),
    ("session", .text image.session),
    ("is_selected", .bool image.isSelected),
    ("download_info", image.mark.toJson)]

/-- The image of a record. -/
def ofJson? (v : Json) : Option Image := do
  let r ← Json.Record.ofJson? fields v
  let name ← r.required "name" Json.text?
  let path ← r.required "path" Json.text?
  let extension ← r.required "extension" Json.text?
  let stem ← r.required "stem" Json.text?
  let captured ← r.optional "datetime" CaptureDate.ofJson?
  let session ← r.required "session" Json.text?
  let isSelected ← r.required "is_selected" Json.bool?
  let mark ← r.required "download_info" DownloadMark.ofJson?
  return { name, path, extension, stem, captured, session, isSelected, mark }

end Image

namespace ImageUpdate

/-- The written form of an update. -/
def toJson : ImageUpdate → Json
  | captured date => .object [("Datetime", date.toJson)]
  | selected isSelected => .object [("Selected", .bool isSelected)]
  | session label => .object [("Session", .text label)]

/-- The update of a case. -/
def ofJson? (v : Json) : Option ImageUpdate :=
  match Json.caseContent? v with
  | some ("Datetime", content) => (CaptureDate.ofJson? content).map captured
  | some ("Selected", content) => content.bool?.map selected
  | some ("Session", content) => content.text?.map session
  | _ => none

end ImageUpdate

end PhotoIntake
