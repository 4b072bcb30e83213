/-!
# Whole numbers in decimal

Writing, padding and reading whole numbers.  A reader takes one or more ASCII digits; the signed
and the plus-signed forms are the two extensions that dates and counters use.
-/

namespace PhotoIntake.Decimal

/-- The numbers below it are those that a word of some bits holds. -/
def wordBound (bits : Nat) : Nat :=
  1 <<< bits

/-- The number that is written as a one and some zeros. -/
def tens (zeros : Nat) : Nat :=
  Nat.pow 10 zeros

/-- The digits of a number, without leading zeros. -/
def digits (n : Nat) : List Char :=
  Nat.toDigits 10 n

/-- The text of a number. -/
def text (n : Nat) : String :=
  String.ofList (digits n)

/-- The digits of a number, with zeros in front up to the width. -/
def paddedDigits (width n : Nat) : List Char :=
  List.replicate (width - (digits n).length) '0' ++ digits n

/-- The text of a number with zeros in front up to the width. -/
def padded (width n : Nat) : String :=
  String.ofList (paddedDigits width n)

/-- The value of one or more ASCII digits. -/
def readDigits? (s : List Char) : Option Nat :=
  if s.isEmpty || !s.all Char.isDigit then none
  else some (Nat.ofDigitChars 10 s 0)

/-- The value of a number that may carry a plus sign, if it is below the bound. -/
def readBelow? (bound : Nat) (s : List Char) : Option Nat :=
  let body := match s with
    | '+' :: rest => rest
    | _ => s
  (readDigits? body).filter (· < bound)

/-- The value of a number that may carry either sign, if it fits 32 bits. -/
def readSigned32? (s : List Char) : Option Int :=
  match s with
  | '-' :: rest => ((readDigits? rest).filter (· ≤ wordBound 31)).map fun n => -(n : Int)
  | _ => (readBelow? (wordBound 31) s).map Int.ofNat

/-- The longest run of ASCII digits that ends the text. -/
def trailingDigits (s : List Char) : List Char :=
  (s.reverse.takeWhile Char.isDigit).reverse

theorem readDigits?_digits (n : Nat) : readDigits? (digits n) = some n := by
  have hne : digits n ≠ [] := Nat.toDigits_ne_nil
  have hall : (digits n).all Char.isDigit = true :=
    List.all_eq_true.2 fun c hc => Nat.isDigit_of_mem_toDigits (by decide) (by decide) hc
  have hval : Nat.ofDigitChars 10 (digits n) 0 = n :=
    Nat.ofDigitChars_toDigits (by decide) (by decide)
  simp [readDigits?, List.isEmpty_iff, hne, hall, hval]

end PhotoIntake.Decimal
