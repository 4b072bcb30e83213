import PhotoIntake.Text.Casing.Tables

/-!
# Upper and lower case

Full case mapping of a text, character by character.  The one rule that looks at the context is
the lower case of a capital sigma: at the end of a word it is the final form.
-/

namespace PhotoIntake.Text

open Casing

/-- The image of a code point under the first run that lists it, else the code point. -/
def mapByRuns (runs : List Run) (c : Char) : Char :=
  match runs.find? (·.lists c.toNat) with
  | some run => Char.ofNat (Int.toNat (c.toNat + run.shift))
  | none => c

/-- The lower-case form of one character, context apart. -/
def lowerChar (c : Char) : List Char :=
  if c.toNat < 0x80 then [c.toLower]
  else match lowerSpecial.lookup c with
    | some form => form
    | none => [mapByRuns lowerRuns c]

/-- The upper-case form of one character. -/
def upperChar (c : Char) : List Char :=
  if c.toNat < 0x80 then [c.toUpper]
  else match upperSpecial.lookup c with
    | some form => form
    | none => [mapByRuns upperRuns c]

/-- Whether some range of the list holds the character. -/
def inRanges (ranges : List (Nat × Nat)) (c : Char) : Bool :=
  ranges.any fun r => r.1 ≤ c.toNat && c.toNat ≤ r.2

/-- Whether the first character that is not skipped has case. -/
def startsCased (s : List Char) : Bool :=
  match s.dropWhile (inRanges ignorableRanges) with
  | [] => false
  | c :: _ => inRanges casedRanges c

/-- Lower case of a text, given the characters before it in reverse. -/
def lowerAfter (before : List Char) : List Char → List Char
  | [] => []
  | c :: rest =>
    let form :=
      if c == 'Σ' then
        if startsCased before && !startsCased rest then ['ς'] else ['σ']
      else lowerChar c
    form ++ lowerAfter (c :: before) rest

/-- The lower-case form of a text. -/
def lower (s : String) : String :=
  String.ofList (lowerAfter [] s.toList)

/-- The upper-case form of a text. -/
def upper (s : String) : String :=
  String.ofList (s.toList.flatMap upperChar)

end PhotoIntake.Text
