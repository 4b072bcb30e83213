import PhotoIntake.Calendar.DateTime
import PhotoIntake.Calendar.Pattern
import PhotoIntake.Decimal.Whole
import PhotoIntake.Text.Blank

/-!
# Written date-times

A date-time is written `YYYY-MM-DD`, a separator, `HH:MM:SS` and, where the second is not whole,
a point and the shortest of three, six and nine places that is exact.  The reader takes blanks
in front of each number and an explicit sign on the year.
-/

namespace PhotoIntake.Calendar

/-- The places of the second after the point: none, three, six or nine. -/
def fractionText (fraction : Nat) : String :=
  if fraction = 0 then ""
  else if fraction % 1000000 = 0 then "." ++ Decimal.padded 3 (fraction / 1000000)
  else if fraction % 1000 = 0 then "." ++ Decimal.padded 6 (fraction / 1000)
  else "." ++ Decimal.padded 9 fraction

namespace Date

/-- The written form of a date. -/
def text (d : Date) : String :=
  yearText d.year ++ "-" ++ Decimal.padded 2 d.month ++ "-" ++ Decimal.padded 2 d.day

end Date

namespace Time

/-- The written form of a time of day. -/
def text (t : Time) : String :=
  Decimal.padded 2 t.hour ++ ":" ++ Decimal.padded 2 t.minute ++ ":" ++
    Decimal.padded 2 t.shownSecond ++ fractionText t.fraction

end Time

/-- What stands between the day and the time. -/
inductive Separator where
  | letterT
  | space
  deriving DecidableEq

namespace Reading

/-- Up to `width` digits, at least one, and the rest. -/
def number? (width : Nat) (s : List Char) : Option (Nat × List Char) :=
  let run := (s.take width).takeWhile Char.isDigit
  if run.isEmpty then none
  else some (Nat.ofDigitChars 10 run 0, s.drop run.length)

/-- A number of two places after blanks. -/
def pair? (s : List Char) : Option (Nat × List Char) :=
  number? 2 (Text.trimStart s)

/-- A year after blanks: up to four digits, or a sign and any number of digits. -/
def year? (s : List Char) : Option (Int × List Char) :=
  match Text.trimStart s with
  | '-' :: rest => (number? rest.length rest).map fun (n, rest) => (-(n : Int), rest)
  | '+' :: rest => (number? rest.length rest).map fun (n, rest) => ((n : Int), rest)
  | s => (number? 4 s).map fun (n, rest) => ((n : Int), rest)

/-- The rest after one given character. -/
def literal? (c : Char) : List Char → Option (List Char)
  | [] => none
  | d :: rest => if c = d then some rest else none

/-- A point and the places after it in nanoseconds, if there is a point; places beyond the ninth
are dropped. -/
def fraction? : List Char → Option (Nat × List Char)
  | '.' :: rest =>
    (number? 9 rest).map fun (n, _) =>
      let places := ((rest.take 9).takeWhile Char.isDigit).length
      (n * Decimal.tens (9 - places), rest.dropWhile Char.isDigit)
  | s => some (0, s)

/-- The rest after the separator. -/
def separator? : Separator → List Char → Option (List Char)
  | .letterT, s => literal? 'T' (Text.trimStart s)
  | .space, s => some (Text.trimStart s)

/-- Blanks before a sign between two numbers, and the sign. -/
def sign? (blanks : Bool) (c : Char) (s : List Char) : Option (List Char) :=
  literal? c (if blanks then Text.trimStart s else s)

end Reading

namespace DateTime

/-- The written form of a date-time. -/
def text (separator : Separator) (t : DateTime) : String :=
  t.date.text ++ (match separator with | .letterT => "T" | .space => " ") ++ t.time.text

open Reading in
/-- The date-time that a text writes.  In the form with the letter, blanks may also stand before
the signs and at the end. -/
def read? (separator : Separator) (s : String) : Option DateTime := do
  let blanks := separator == .letterT
  let (year, s) ← year? s.toList
  let s ← sign? blanks '-' s
  let (month, s) ← pair? s
  let s ← sign? blanks '-' s
  let (day, s) ← pair? s
  let s ← separator? separator s
  let (hour, s) ← pair? s
  let s ← sign? blanks ':' s
  let (minute, s) ← pair? s
  let s ← sign? blanks ':' s
  let (second, s) ← pair? s
  let (fraction, s) ← fraction? s
  let s := if blanks then Text.trimStart s else s
  if !s.isEmpty then none
  let date ← Date.of? year month day
  let time ← Time.ofShown? hour minute second fraction
  return ⟨date, time⟩

end DateTime

end PhotoIntake.Calendar
