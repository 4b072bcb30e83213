import PhotoIntake.Json.Float
import PhotoIntake.Json.Reader

/-!
# Values that are kept

A value that is kept as it is, without a reader that says what it is for, has to make sense on its
own: its texts have characters and its numbers are integers of 64 bits or doubles.
-/

namespace PhotoIntake.Json

/-- The number as an integer of 64 bits where it is one, else as a double. -/
def Number.settled? (n : Number) : Option Json :=
  if n.isWhole && !n.negative && n.whole < Decimal.wordBound 64 then some (.number n)
  else if n.toInt64?.isSome then some (.number n)
  else n.toFloat?.map ofFloat

mutual

/-- The value with its numbers settled, if they can be and every text has characters. -/
def settled? : Json → Option Json
  | .number n => n.settled?
  | .brokenText => none
  | .array items => (settledItems? items).map .array
  | .object members => (settledMembers? members).map .object
  | v => some v

/-- The items, each settled. -/
def settledItems? : List Json → Option (List Json)
  | [] => some []
  | v :: rest => do
    let v ← settled? v
    let rest ← settledItems? rest
    return v :: rest

/-- The members, each settled. -/
def settledMembers? : List (String × Json) → Option (List (String × Json))
  | [] => some []
  | (key, v) :: rest => do
    let v ← settled? v
    let rest ← settledMembers? rest
    return (key, v) :: rest

end

/-- The depth that a kept value has to stay below. -/
def depthLimit : Nat := 128

/-- The value of a text that is kept as it is. -/
def readSettled? (s : String) : Option Json :=
  ((read? s).filter fun v => depth v < depthLimit).bind settled?

end PhotoIntake.Json
