import PhotoIntake.Decimal.Whole

/-!
# Shortest decimals of binary floating point

A finite double is a whole multiple of a power of two, and the reals that round to it form an
interval around it.  Its shortest decimal is the point of that interval on the coarsest decimal
grid that meets it, the nearer one where two do.
-/

namespace PhotoIntake.Decimal

/-- A whole number times a power of ten. -/
structure Scaled where
  digits : Nat
  power : Int
  deriving DecidableEq

/-- A positive finite double as `mantissa · 2 ^ power`.  At the bottom of a binade the next double
below is only half as far away as the next one above. -/
structure Binary where
  mantissa : Nat
  power : Int
  atBottom : Bool
  deriving DecidableEq

namespace Binary

/-- The double with the given bits, sign apart, if it is finite and not zero. -/
def ofBits? (bits : UInt64) : Option Binary :=
  let fraction : Nat := bits.toNat % wordBound 52
  let biased : Nat := bits.toNat / wordBound 52 % wordBound 11
  if biased = 2047 then none
  else if biased = 0 then
    if fraction = 0 then none else some ⟨fraction, -1074, false⟩
  else some ⟨wordBound 52 + fraction, (biased : Int) - 1075, fraction == 0 && 1 < biased⟩

/-- The ends of the interval that rounds to the double, in quarters of its unit. -/
def lowQuarters (b : Binary) : Nat :=
  4 * b.mantissa - (if b.atBottom then 1 else 2)

/-- The upper end of the interval, in quarters of the unit. -/
def highQuarters (b : Binary) : Nat :=
  4 * b.mantissa + 2

/-- The step of a decimal grid, in the measure that it has in common with quarters of the unit. -/
def step (b : Binary) (power : Int) : Nat :=
  tens power.toNat <<< (2 - b.power).toNat

/-- A quarter of the unit in that measure. -/
def quarter (b : Binary) (power : Int) : Nat :=
  tens (-power).toNat <<< (b.power - 2).toNat

/-- A point of the decimal grid rounds to the double; the ends of the interval do where the mantissa
is even. -/
def isRoundedFrom (b : Binary) (power : Int) (d : Nat) : Bool :=
  let low := b.lowQuarters * b.quarter power
  let high := b.highQuarters * b.quarter power
  let point := d * b.step power
  if b.mantissa % 2 = 0 then low ≤ point && point ≤ high else low < point && point < high

/-- The point of the decimal grid that rounds to the double, the nearer one of two; a tie goes to
the even digit. -/
def pointOnGrid? (b : Binary) (power : Int) : Option Scaled :=
  let step := b.step power
  let value := 4 * b.mantissa * b.quarter power
  let below := value / step
  let above := below + 1
  let belowFits := 0 < below && b.isRoundedFrom power below
  let aboveFits := b.isRoundedFrom power above
  if belowFits && aboveFits then
    let down := value - below * step
    let up := above * step - value
    if down < up || (down == up && below % 2 == 0) then some ⟨below, power⟩ else some ⟨above, power⟩
  else if belowFits then some ⟨below, power⟩
  else if aboveFits then some ⟨above, power⟩
  else none

/-- The shortest decimal that rounds to the double. -/
def shortest? (b : Binary) : Option Scaled :=
  (List.range 650).findSome? fun (i : Nat) => b.pointOnGrid? (310 - (i : Int))

end Binary

/-- The shortest decimal of the absolute value of a double, if it is finite; zero for zero. -/
def shortest? (x : Float) : Option Scaled :=
  match Binary.ofBits? x.toBits with
  | some b => b.shortest?
  | none => if x == 0 then some ⟨0, 0⟩ else none

end PhotoIntake.Decimal
