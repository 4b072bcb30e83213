import PhotoIntake.Calendar.DateTime
import PhotoIntake.Decimal.Whole

/-!
# Date patterns

A pattern is a list of date fields and literal characters.  It writes a date-time, and it has a
notation of its own in which each field is a percent sign and a letter.
-/

namespace PhotoIntake.Calendar

/-- One item of a pattern. -/
inductive Field where
  | year
  | shortYear
  | month
  | monthName
  | monthAbbreviated
  | day
  | dayOfYear
  | weekdayName
  | weekdayAbbreviated
  | hour
  | minute
  | second
  | literal (c : Char)
  deriving DecidableEq

/-- The English month names. -/
def monthNames : List String :=
  ["January", "February", "March", "April", "May", "June", "July", "August", "September",
    "October", "November", "December"]

/-- The English weekday names, Monday first. -/
def weekdayNames : List String :=
  ["Monday", "Tuesday", "Wednesday", "Thursday", "Friday", "Saturday", "Sunday"]

/-- A year of four digits from 0 to 9999, and with a sign and at least four digits beyond. -/
def yearText (year : Int) : String :=
  if 0 ≤ year ∧ year ≤ 9999 then Decimal.padded 4 year.toNat
  else (if year < 0 then "-" else "+") ++ Decimal.padded 4 year.natAbs

namespace Field

/-- The text of the field for a date-time. -/
def text (t : DateTime) : Field → String
  | year => yearText t.date.year
  | shortYear => Decimal.padded 2 (t.date.year % 100).toNat
  | month => Decimal.padded 2 t.date.month
  | monthName => monthNames.getD (t.date.month - 1) ""
  | monthAbbreviated => ((monthNames.getD (t.date.month - 1) "").take 3).toString
  | day => Decimal.padded 2 t.date.day
  | dayOfYear => Decimal.padded 3 t.date.dayOfYear
  | weekdayName => weekdayNames.getD t.date.weekday ""
  | weekdayAbbreviated => ((weekdayNames.getD t.date.weekday "").take 3).toString
  | hour => Decimal.padded 2 t.time.hour
  | minute => Decimal.padded 2 t.time.minute
  | second => Decimal.padded 2 t.time.shownSecond
  | literal c => String.singleton c

/-- The notation of the field. -/
def notated : Field → String
  | year => "%Y"
  | shortYear => "%y"
  | month => "%m"
  | monthName => "%B"
  | monthAbbreviated => "%b"
  | day => "%d"
  | dayOfYear => "%j"
  | weekdayName => "%A"
  | weekdayAbbreviated => "%a"
  | hour => "%H"
  | minute => "%M"
  | second => "%S"
  | literal c => String.singleton c

end Field

/-- Date fields and literal characters in the order in which they are written. -/
abbrev Pattern := List Field

namespace Pattern

/-- A date-time written by the pattern. -/
def text (p : Pattern) (t : DateTime) : String :=
  String.join (p.map (Field.text t))

/-- The notation of the pattern. -/
def notated (p : Pattern) : String :=
  String.join (p.map Field.notated)

end Pattern

end PhotoIntake.Calendar
