import PhotoIntake.Decimal.Whole

/-!
# JSON values

A value keeps what its text says: members in their order, repeated keys included, and numbers by
their digits.  What a number is worth to a reader is decided when it is asked for.
-/

namespace PhotoIntake

namespace Json

/-- A number as it is written: sign, whole part, places after the point, power of ten. -/
structure Number where
  negative : Bool
  whole : Nat
  places : List Char
  exponent : Option Int
  deriving DecidableEq

namespace Number

/-- The number of a count. -/
def ofNat (n : Nat) : Number :=
  ⟨false, n, [], none⟩

/-- The number is written without point and power. -/
def isWhole (n : Number) : Bool :=
  n.places.isEmpty && n.exponent.isNone

/-- The count that the number writes, if it is a whole number without sign. -/
def toNat? (n : Number) : Option Nat :=
  if n.isWhole && !n.negative then some n.whole else none

/-- The integer that the number writes, if it fits 64 bits with a sign.  A zero with a sign is no
integer. -/
def toInt64? (n : Number) : Option Int :=
  if !n.isWhole then none
  else if n.negative then
    if 0 < n.whole ∧ n.whole ≤ Decimal.wordBound 63 then some (-(n.whole : Int)) else none
  else if n.whole < Decimal.wordBound 63 then some n.whole else none

end Number

end Json

/-- A JSON value.  A text with half of a surrogate pair in it has no characters; it is kept apart
because a reader may skip it, and so is an object with such a key. -/
inductive Json where
  | null
  | bool (b : Bool)
  | number (n : Json.Number)
  | text (s : String)
  | brokenText
  | array (items : List Json)
  | object (members : List (String × Json))

namespace Json

/-- The number of a count. -/
def ofNat (n : Nat) : Json :=
  .number (Number.ofNat n)

/-- The text of a value that is a text. -/
def text? : Json → Option String
  | .text s => some s
  | _ => none

/-- The truth value of a value that is one. -/
def bool? : Json → Option Bool
  | .bool b => some b
  | _ => none

/-- The count of a value that is one, if it is below the bound. -/
def natBelow? (bound : Nat) : Json → Option Nat
  | .number n => n.toNat?.filter (· < bound)
  | _ => none

/-- The items of a value that is an array. -/
def items? : Json → Option (List Json)
  | .array items => some items
  | _ => none

/-- The value of the last member with the key, in a value that is an object. -/
def member? (key : String) : Json → Option Json
  | .object members => members.reverse.lookup key
  | _ => none

/-- The items of an array, each read by the same reader. -/
def listOf? {α : Type} (read : Json → Option α) (v : Json) : Option (List α) :=
  v.items?.bind fun items => items.mapM read

/-- Null, or a value read by the reader. -/
def nullable? {α : Type} (read : Json → Option α) : Json → Option (Option α)
  | .null => some none
  | v => (read v).map some

mutual

/-- The number of arrays and objects around the innermost value. -/
def depth : Json → Nat
  | .array items => depthOfItems items + 1
  | .object members => depthOfMembers members + 1
  | _ => 0

/-- The greatest depth of the items. -/
def depthOfItems : List Json → Nat
  | [] => 0
  | v :: rest => max (depth v) (depthOfItems rest)

/-- The greatest depth of the members. -/
def depthOfMembers : List (String × Json) → Nat
  | [] => 0
  | (_, v) :: rest => max (depth v) (depthOfMembers rest)

end

end Json

end PhotoIntake
