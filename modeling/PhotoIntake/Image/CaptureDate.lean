import PhotoIntake.Calendar.DateTime
import PhotoIntake.Decimal.Whole
import PhotoIntake.Text.Blank

/-!
# Capture dates

The date and time at which an image was taken, as the six texts that its metadata gives.  Texts
that form no calendar date are kept as they are; asked for a date-time they have none.
-/

namespace PhotoIntake

/-- The six fields of a capture date. -/
structure CaptureDate where
  year : String
  month : String
  day : String
  hour : String
  minute : String
  second : String
  deriving DecidableEq

namespace CaptureDate

/-- The date of an image whose date is missing or cannot be read. -/
def fallback : CaptureDate :=
  ⟨"1970", "01", "01", "00", "00", "00"⟩

/-- Three texts between colons, none of them empty. -/
def triple? (s : List Char) : Option (String × String × String) :=
  match s.splitOn ':' with
  | [a, b, c] =>
    if a.isEmpty || b.isEmpty || c.isEmpty then none
    else some (String.ofList a, String.ofList b, String.ofList c)
  | _ => none

/-- The fields of a metadata text `YYYY:MM:DD HH:MM:SS`.  Blanks around the text and around the
time are ignored; the date ends at the first space. -/
def ofMetadata? (value : String) : Option CaptureDate :=
  let s := Text.trim value.toList
  match s.dropWhile (· != ' ') with
  | [] => none
  | _ :: time =>
    match triple? (s.takeWhile (· != ' ')), triple? (Text.trim time) with
    | some (year, month, day), some (hour, minute, second) =>
      some ⟨year, month, day, hour, minute, second⟩
    | _, _ => none

/-- The date-time of the fields, if all are numbers and form one. -/
def toDateTime? (d : CaptureDate) : Option Calendar.DateTime := do
  let number (s : String) : Option Nat := Decimal.readBelow? (Decimal.wordBound 32) s.toList
  let year ← Decimal.readSigned32? d.year.toList
  let month ← number d.month
  let day ← number d.day
  let hour ← number d.hour
  let minute ← number d.minute
  let second ← number d.second
  let date ← Calendar.Date.of? year month day
  let time ← Calendar.Time.of? hour minute second 0
  return ⟨date, time⟩

end CaptureDate

end PhotoIntake
