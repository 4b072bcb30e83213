import PhotoIntake.Json.Basic
import PhotoIntake.Decimal.Rounding
import PhotoIntake.Decimal.Shortest

/-!
# Floating point in JSON

A double is written with its shortest digits.  The point is among them, with a zero on the bare
side, when the value is below `10 ^ 16` and not below `10 ^ -5`; otherwise the digits are scaled
by a power of ten.  A number is read by scaling its leading digits, as many as fit 64 bits, in
floating point.
-/

namespace PhotoIntake.Json

/-- The greatest number of digits before the point. -/
def maxWholeDigits : Int := 16

/-- The greatest number of zeros between the point and the first digit. -/
def maxLeadingZeros : Int := 4

/-- The number with the given digits and power of ten, laid out. -/
def Number.ofScaled (negative : Bool) (d : Decimal.Scaled) : Number :=
  let run := Decimal.digits d.digits
  let point : Int := run.length + d.power
  if 0 ≤ d.power ∧ point ≤ maxWholeDigits then
    ⟨negative, d.digits * Decimal.tens d.power.toNat, ['0'], none⟩
  else if 0 < point ∧ point ≤ maxWholeDigits then
    ⟨negative, Nat.ofDigitChars 10 (run.take point.toNat) 0, run.drop point.toNat, none⟩
  else if -maxLeadingZeros - 1 < point ∧ point ≤ 0 then
    ⟨negative, 0, List.replicate (-point).toNat '0' ++ run, none⟩
  else ⟨negative, Nat.ofDigitChars 10 (run.take 1) 0, run.drop 1, some (point - 1)⟩

/-- A double; null when it is not finite. -/
def ofFloat (x : Float) : Json :=
  match Decimal.shortest? x with
  | some d => .number (Number.ofScaled (x.toBits.toNat / Decimal.wordBound 63 = 1) d)
  | none => .null

/-- Leading digits of a number: their value, and how many of the given digits were left out. -/
structure Leading where
  value : Nat
  dropped : Nat

/-- One more digit, unless an earlier one was left out or the value would not fit 64 bits. -/
def Leading.push (l : Leading) (c : Char) : Leading :=
  let next := l.value * 10 + (c.toNat - '0'.toNat)
  if l.dropped = 0 ∧ next < Decimal.wordBound 64 then { l with value := next }
  else { l with dropped := l.dropped + 1 }

/-- A whole number times a power of ten, unless it is too great.  Both factors are rounded to doubles,
and so is their product.  Powers beyond `10 ^ 308` are applied in several steps down, and not at all
up. -/
def scale? (value : Nat) (power : Int) : Option Float :=
  let size := power.natAbs
  if 0 ≤ power then
    if value = 0 then some 0
    else if 308 < size ∨ Decimal.infinityBound ≤
        Decimal.nearestDouble value * Decimal.nearestDouble (Decimal.tens size) then none
    else some (Float.ofNat value * Float.ofScientific 1 false size)
  else
    let steps := (size - 1) / 308
    let reduced := (List.range (min steps 3)).foldl (fun v _ => v / 1e308) (Float.ofNat value)
    let rest := size - 308 * steps
    some (reduced / Float.ofScientific 1 false rest)

/-- The greatest power of ten whose digits are taken into account. -/
def maxPower : Int := Decimal.wordBound 31 - 1

/-- The double that a number stands for, unless it is too great. -/
def Number.toFloat? (n : Number) : Option Float :=
  let magnitude : Option Float :=
    if n.isWhole && n.whole < Decimal.wordBound 64 then some (Float.ofNat n.whole)
    else
      let whole := (Decimal.digits n.whole).foldl Leading.push ⟨0, 0⟩
      let all := n.places.foldl Leading.push { whole with dropped := 0 }
      let taken : Int := n.places.length - all.dropped
      let power := whole.dropped - taken
      match n.exponent with
      | none => scale? all.value power
      | some e =>
        if maxPower < e then (if all.value = 0 then some 0 else none)
        else if e < -maxPower then some 0
        else scale? all.value (power + e)
  magnitude.map fun x => if n.negative then -x else x

/-- The double of a value that is a number. -/
def float? : Json → Option Float
  | .number n => n.toFloat?
  | _ => none

end PhotoIntake.Json
