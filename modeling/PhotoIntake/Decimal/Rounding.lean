import PhotoIntake.Decimal.Whole

/-!
# Rounding whole numbers

A quotient is rounded to the nearest whole number, and a whole number to the nearest one that has
no more binary digits than a double keeps; from the middle it is always the even one.
-/

namespace PhotoIntake.Decimal

/-- The quotient rounded to the nearest whole number, from the middle to the even one. -/
def roundedQuotient (n d : Nat) : Nat :=
  let below := n / d
  let rest := n % d
  if 2 * rest < d ∨ (2 * rest = d ∧ below % 2 = 0) then below else below + 1

/-- A whole number with the 53 binary digits that a double keeps, whatever the size. -/
def nearestDouble (n : Nat) : Nat :=
  let unit := 1 <<< (n.log2 - 52)
  roundedQuotient n unit * unit

/-- From here on a value is rounded to infinity: half a unit beyond the greatest double. -/
def infinityBound : Nat :=
  wordBound 1024 - wordBound 970

end PhotoIntake.Decimal
