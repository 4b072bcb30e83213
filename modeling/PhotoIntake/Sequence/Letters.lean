/-!
# Sequence letters

Positive numbers in bijective base 26: `A` is 1, `Z` is 26, `AA` is 27.  Zero is the empty word.
-/

namespace PhotoIntake.Sequence

/-- The letter of a value from 1 to 26. -/
def letter (value : Nat) : Char :=
  Char.ofNat ('A'.toNat + (value - 1))

/-- The letters of a number, the last one first. -/
def lettersUp (n : Nat) : List Char :=
  if h : n = 0 then []
  else letter ((n - 1) % 26 + 1) :: lettersUp ((n - 1) / 26)
termination_by n
decreasing_by omega

/-- The letters of a number. -/
def letters (n : Nat) : String :=
  String.ofList (lettersUp n).reverse

/-- The number of a word of capital letters, the value so far given. -/
def ofLetters? (value : Nat) : List Char → Option Nat
  | [] => some value
  | c :: rest =>
    if 'A' ≤ c ∧ c ≤ 'Z' then ofLetters? (value * 26 + (c.toNat - 'A'.toNat + 1)) rest else none

end PhotoIntake.Sequence
