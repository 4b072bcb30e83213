import PhotoIntake.Calendar.Notation
import PhotoIntake.Json.Record

/-!
# The count of a day

How many images were downloaded on a day.  Asked for a later day the count starts again; asked
for an earlier day it stays as it is.
-/

namespace PhotoIntake.Sequence

/-- A count with the day that it belongs to. -/
structure Daily where
  date : Calendar.Date
  count : Nat
  deriving DecidableEq

namespace Daily

/-- The count as it stands on a day. -/
def on (d : Daily) (today : Calendar.Date) : Daily :=
  if d.date < today then ⟨today, 0⟩ else d

/-- One more image on a day. -/
def increment (d : Daily) (today : Calendar.Date) : Daily :=
  let d := d.on today
  { d with count := d.count + 1 }

/-- The text of a year as a whole number with its sign. -/
def yearText (year : Int) : String :=
  (if year < 0 then "-" else "") ++ Decimal.text year.natAbs

/-- The written form of a day: its three numbers without padding. -/
def dateText (date : Calendar.Date) : String :=
  yearText date.year ++ "-" ++ Decimal.text date.month ++ "-" ++ Decimal.text date.day

/-- The day that three numbers between dashes name.  The year is a word of 32 bits, and its upper
half stands for negative years. -/
def readDate? (s : String) : Option Calendar.Date :=
  match s.toList.splitOn '-' with
  | [year, month, day] => do
    let year ← Decimal.readBelow? (Decimal.wordBound 32) year
    let month ← Decimal.readBelow? (Decimal.wordBound 32) month
    let day ← Decimal.readBelow? (Decimal.wordBound 32) day
    Calendar.Date.of? ((year : Int).bmod (Decimal.wordBound 32)) month day
  | _ => none

/-- The written form of a count: its day and its value. -/
def toJson (d : Daily) : Json :=
  .array [.text (dateText d.date), Json.ofNat d.count]

/-- The count of a day and a value. -/
def ofJson? : Json → Option Daily
  | .array [.text date, count] => do
    let date ← readDate? date
    let count ← count.natBelow? (Decimal.wordBound 32)
    return ⟨date, count⟩
  | _ => none

end Daily

end PhotoIntake.Sequence
