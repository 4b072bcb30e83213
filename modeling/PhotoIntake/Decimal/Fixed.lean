import PhotoIntake.Decimal.Rounding
import PhotoIntake.Decimal.Shortest

/-!
# Decimals with fixed places

A double is written with a given number of places: its exact value is rounded to the nearest
decimal of that many places, and from the middle to the one with an even last digit.
-/

namespace PhotoIntake.Decimal

/-- The value of a double in units of the last place. -/
def Binary.inPlaces (b : Binary) (places : Nat) : Nat :=
  roundedQuotient (b.mantissa <<< b.power.toNat * tens places) (1 <<< (-b.power).toNat)

/-- The text of a number that is given in units of its last place. -/
def placed (places n : Nat) : String :=
  text (n / tens places) ++ "." ++ padded places (n % tens places)

/-- The text of a finite double that is not negative, with some places. -/
def fixed (places : Nat) (x : Float) : String :=
  placed places (((Binary.ofBits? x.toBits).map (·.inPlaces places)).getD 0)

end PhotoIntake.Decimal
