import PhotoIntake.Calendar.Date
import PhotoIntake.Decimal.Whole
import PhotoIntake.Toml.Basic
import PhotoIntake.Toml.Quoting

/-!
# Unquoted values

Truth values, integers, floating numbers and moments.  Such a value is a run of letters, digits
and a few signs; a space may stand only between a date and a time of day.
-/

namespace PhotoIntake.Toml

/-- A character of an unquoted value. -/
def isScalarChar (c : Char) : Bool :=
  c.isAlphanum || c == '_' || c == '+' || c == '-' || c == '.' || c == ':'

/-! ## Numbers -/

/-- The sign of a number, and what follows it. -/
def sign : List Char → Bool × List Char
  | '-' :: rest => (true, rest)
  | '+' :: rest => (false, rest)
  | s => (false, s)

/-- The digits of a run in which single underscores may stand between two digits. -/
def ungrouped? (isDigit : Char → Bool) : List Char → Option (List Char)
  | [] => none
  | [c] => if isDigit c then some [c] else none
  | c :: '_' :: rest => if isDigit c then (ungrouped? isDigit rest).map (c :: ·) else none
  | c :: rest => if isDigit c then (ungrouped? isDigit rest).map (c :: ·) else none

/-- The digits of a decimal number.  No zero stands in front of another digit. -/
def wholeDigits? (s : List Char) : Option (List Char) :=
  (ungrouped? Char.isDigit s).filter fun
    | '0' :: rest => rest.isEmpty
    | _ => true

/-- The value of a number in a base, without sign. -/
def inBase? (base : Nat) (s : List Char) : Option Nat :=
  (ungrouped? (fun c => (digitIn? base c).isSome) s).bind (ofDigits? base)

/-- The integer has 64 bits, one of them for the sign. -/
def fits (n : Int) : Bool :=
  -(Decimal.wordBound 63 : Int) ≤ n && n < (Decimal.wordBound 63 : Int)

/-- The value of an integer: a sign and decimal digits, or digits in one of three other bases. -/
def integer? (s : List Char) : Option Int :=
  let n : Option Int :=
    match s with
    | '0' :: 'x' :: rest => (inBase? 16 rest).map Int.ofNat
    | '0' :: 'o' :: rest => (inBase? 8 rest).map Int.ofNat
    | '0' :: 'b' :: rest => (inBase? 2 rest).map Int.ofNat
    | _ =>
      let (negative, body) := sign s
      ((wholeDigits? body).bind (ofDigits? 10)).map fun n => if negative then -(n : Int) else n
  n.filter fits

/-- A decimal with its digits before and behind the point and its power of ten. -/
structure Decimals where
  whole : List Char
  places : List Char
  power : Int

/-- The least number that rounds to infinity. -/
def infinityBound : Nat :=
  1 <<< 1024 - 1 <<< 970

/-- The decimal rounds to infinity.  Decimals whose first digit stands far from the bound are
decided by its place. -/
def Decimals.isInfinite (d : Decimals) : Bool :=
  let digits := (d.whole ++ d.places).dropWhile (· == '0')
  let lead : Int := digits.length - d.places.length + d.power
  if digits.isEmpty || lead < 300 then false
  else if 310 < lead then true
  else
    let n := Nat.ofDigitChars 10 digits 0
    let shift := d.power - d.places.length
    infinityBound * Decimal.tens (-shift).toNat ≤ n * Decimal.tens shift.toNat

/-- The power of ten behind its letter. -/
def power? (s : List Char) : Option Int :=
  let (negative, body) := sign s
  ((ungrouped? Char.isDigit body).bind (ofDigits? 10)).map fun n =>
    if negative then -(n : Int) else n

/-- The letter in front of a power of ten. -/
def isPowerMark (c : Char) : Bool :=
  c == 'e' || c == 'E'

/-- A decimal that has places behind a point, a power of ten, or both. -/
def decimals? (s : List Char) : Option Decimals := do
  let front := s.takeWhile fun c => !isPowerMark c
  let power ← match s.dropWhile fun c => !isPowerMark c with
    | [] => some none
    | _ :: rest => (power? rest).map some
  let whole ← wholeDigits? (front.takeWhile (· != '.'))
  match front.dropWhile (· != '.'), power with
  | [], none => none
  | [], some power => return ⟨whole, [], power⟩
  | _ :: rest, _ => return ⟨whole, ← ungrouped? Char.isDigit rest, power.getD 0⟩

/-- The characters write a floating number.  A number above all others is infinite only in words;
one below all others may also be written in digits. -/
def isFloat (s : List Char) : Bool :=
  let (negative, body) := sign s
  String.ofList body == "inf" || String.ofList body == "nan" ||
    match decimals? body with
    | some d => negative || !d.isInfinite
    | none => false

/-! ## Moments -/

/-- The number of two digits, if it is in the range. -/
def twoDigits? (low high : Nat) (a b : Char) : Option Nat :=
  (Decimal.readDigits? [a, b]).filter fun n => low ≤ n && n ≤ high

/-- The characters write a date. -/
def isDate : List Char → Bool
  | [y₁, y₂, y₃, y₄, '-', m₁, m₂, '-', d₁, d₂] =>
    match Decimal.readDigits? [y₁, y₂, y₃, y₄], twoDigits? 1 12 m₁ m₂ with
    | some y, some m => (twoDigits? 1 (Calendar.monthLength y m) d₁ d₂).isSome
    | _, _ => false
  | _ => false

/-- The characters write a time of day; a leap second is one. -/
def isTime : List Char → Bool
  | h₁ :: h₂ :: ':' :: m₁ :: m₂ :: ':' :: s₁ :: s₂ :: places =>
    (twoDigits? 0 23 h₁ h₂).isSome && (twoDigits? 0 59 m₁ m₂).isSome &&
      (twoDigits? 0 60 s₁ s₂).isSome &&
      match places with
      | [] => true
      | '.' :: rest => !rest.isEmpty && rest.all Char.isDigit
      | _ => false
  | _ => false

/-- The characters write the distance from universal time. -/
def isOffset : List Char → Bool
  | ['Z'] => true
  | ['z'] => true
  | [c, h₁, h₂, ':', m₁, m₂] =>
    (c == '+' || c == '-') && (twoDigits? 0 23 h₁ h₂).isSome && (twoDigits? 0 59 m₁ m₂).isSome
  | _ => false

/-- The character may start the distance from universal time. -/
def startsOffset (c : Char) : Bool :=
  c == 'Z' || c == 'z' || c == '+' || c == '-'

/-- The characters write a time of day, which may have its distance from universal time. -/
def isZonedTime (s : List Char) : Bool :=
  let offset := s.dropWhile fun c => !startsOffset c
  isTime (s.takeWhile fun c => !startsOffset c) && (offset.isEmpty || isOffset offset)

/-- The characters write a date, a time of day, or a date and a time of day with the letter T
between them. -/
def isMoment (s : List Char) : Bool :=
  isTime s || isDate s ||
    (isDate (s.take 10) &&
      match s.drop 10 with
      | 'T' :: time => isZonedTime time
      | 't' :: time => isZonedTime time
      | _ => false)

/-! ## Values -/

/-- The value of an unquoted run of characters. -/
def ofRun? (s : List Char) : Option Toml :=
  let written := String.ofList s
  if written == "true" then some (.bool true)
  else if written == "false" then some (.bool false)
  else if isMoment s then some (.moment written)
  else if isFloat s then some (.float written)
  else (integer? s).map .integer

/-- An unquoted value, and what follows it. -/
def scalar? (s : List Char) : Option (Toml × List Char) :=
  let run := s.takeWhile isScalarChar
  let rest := s.dropWhile isScalarChar
  match rest with
  | ' ' :: after =>
    let time := after.takeWhile isScalarChar
    if isDate run && isZonedTime time then
      some (.moment (String.ofList (run ++ ' ' :: time)), after.dropWhile isScalarChar)
    else (ofRun? run).map (·, rest)
  | _ => (ofRun? run).map (·, rest)

end PhotoIntake.Toml
