import PhotoIntake.Calendar.DateTime
import PhotoIntake.Decimal.Fixed

/-!
# Elapsed time

The time that a session took, in the two units that matter: hours and minutes, minutes and
seconds, or seconds and their tenths.
-/

namespace PhotoIntake.Console

open Calendar (nanosPerSecond)

/-- The text of a time in nanoseconds. -/
def elapsedText (nanos : Nat) : String :=
  let seconds := nanos / nanosPerSecond
  if 3600 ≤ seconds then
    Decimal.text (seconds / 3600) ++ "h " ++ Decimal.text (seconds % 3600 / 60) ++ "m"
  else if 60 ≤ seconds then
    Decimal.text (seconds / 60) ++ "m " ++ Decimal.text (seconds % 60) ++ "s"
  else
    let part := Float.ofNat (nanos % nanosPerSecond) / Float.ofNat nanosPerSecond
    Decimal.fixed 1 (Float.ofNat seconds + part) ++ "s"

end PhotoIntake.Console
