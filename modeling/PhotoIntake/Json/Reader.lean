import PhotoIntake.Json.Basic

/-!
# Reading JSON

The scanners work on characters and return what is left.  The reader of values takes fuel, one
unit a value or separator; `read?` gives it more than the text can use.
-/

namespace PhotoIntake.Json

/-- Whether the character may stand between two tokens. -/
def isSpacing (c : Char) : Bool :=
  c == ' ' || c == '\n' || c == '\t' || c == '\r'

/-- The text after its leading spacing. -/
def skipSpacing (s : List Char) : List Char :=
  s.dropWhile isSpacing

/-- The value of a hexadecimal digit. -/
def hexDigit? (c : Char) : Option Nat :=
  if '0' ≤ c ∧ c ≤ '9' then some (c.toNat - '0'.toNat)
  else if 'a' ≤ c ∧ c ≤ 'f' then some (c.toNat - 'a'.toNat + 10)
  else if 'A' ≤ c ∧ c ≤ 'F' then some (c.toNat - 'A'.toNat + 10)
  else none

/-- The value of four hexadecimal digits. -/
def hexUnit? (a b c d : Char) : Option Nat := do
  let a ← hexDigit? a
  let b ← hexDigit? b
  let c ← hexDigit? c
  let d ← hexDigit? d
  return ((a * 16 + b) * 16 + c) * 16 + d

/-- The character that a one-letter escape stands for. -/
def escaped? : Char → Option Char
  | '"' => some '"'
  | '\\' => some '\\'
  | '/' => some '/'
  | 'b' => some '\x08'
  | 'f' => some '\x0c'
  | 'n' => some '\n'
  | 'r' => some '\r'
  | 't' => some '\t'
  | _ => none

/-- A piece of a quoted text: a character, or half of a surrogate pair. -/
inductive Piece where
  | char (c : Char)
  | highHalf (n : Nat)
  | lowHalf (n : Nat)
  deriving DecidableEq

/-- The piece of a unit of sixteen bits. -/
def Piece.ofUnit (n : Nat) : Piece :=
  if 0xD800 ≤ n ∧ n < 0xDC00 then .highHalf n
  else if 0xDC00 ≤ n ∧ n < 0xE000 then .lowHalf n
  else .char (Char.ofNat n)

/-- The pieces up to the closing quote, and what follows it. -/
def pieces? : List Char → Option (List Piece × List Char)
  | [] => none
  | c :: rest =>
    if c = '"' then some ([], rest)
    else if c = '\\' then
      match rest with
      | [] => none
      | e :: rest =>
        if e = 'u' then
          match rest with
          | h₁ :: h₂ :: h₃ :: h₄ :: rest =>
            match hexUnit? h₁ h₂ h₃ h₄, pieces? rest with
            | some n, some (ps, rest) => some (.ofUnit n :: ps, rest)
            | _, _ => none
          | _ => none
        else
          match escaped? e, pieces? rest with
          | some c, some (ps, rest) => some (.char c :: ps, rest)
          | _, _ => none
    else if c.toNat < 0x20 then none
    else
      match pieces? rest with
      | some (ps, rest) => some (.char c :: ps, rest)
      | none => none

/-- The characters of the pieces, if every half has its partner. -/
def joinPieces? : List Piece → Option (List Char)
  | [] => some []
  | .char c :: rest => (joinPieces? rest).map (c :: ·)
  | .highHalf h :: .lowHalf l :: rest =>
    (joinPieces? rest).map
      (Char.ofNat (0x10000 + (h - 0xD800) * 0x400 + (l - 0xDC00)) :: ·)
  | _ => none

/-- A text after its opening quote. -/
def quoted? (s : List Char) : Option (Json × List Char) :=
  (pieces? s).map fun (pieces, rest) =>
    (match joinPieces? pieces with
      | some cs => .text (String.ofList cs)
      | none => .brokenText, rest)

/-- The object of members whose keys may have no characters. -/
def ofMembers (members : List (Option String × Json)) : Json :=
  match members.mapM fun (key, v) => key.map fun key => (key, v) with
  | some members => .object members
  | none => .brokenText

/-- The places after a point, at least one, if there is a point. -/
def places? : List Char → Option (List Char × List Char)
  | '.' :: rest =>
    let run := rest.takeWhile Char.isDigit
    if run.isEmpty then none else some (run, rest.dropWhile Char.isDigit)
  | s => some ([], s)

/-- The digits of a power of ten with their sign. -/
def power? (s : List Char) : Option (Int × List Char) :=
  let (negative, s) := match s with
    | '-' :: rest => (true, rest)
    | '+' :: rest => (false, rest)
    | s => (false, s)
  let run := s.takeWhile Char.isDigit
  if run.isEmpty then none
  else
    let n := Nat.ofDigitChars 10 run 0
    some (if negative then -(n : Int) else n, s.dropWhile Char.isDigit)

/-- A power of ten after its letter, if there is one. -/
def exponent? : List Char → Option (Option Int × List Char)
  | 'e' :: rest => (power? rest).map fun (n, rest) => (some n, rest)
  | 'E' :: rest => (power? rest).map fun (n, rest) => (some n, rest)
  | s => some (none, s)

/-- A number without its sign: no zero stands in front of another digit. -/
def unsigned? (negative : Bool) (s : List Char) : Option (Json × List Char) :=
  let run := s.takeWhile Char.isDigit
  match run with
  | [] => none
  | '0' :: _ :: _ => none
  | _ => do
    let (places, s) ← places? (s.dropWhile Char.isDigit)
    let (exponent, s) ← exponent? s
    return (.number ⟨negative, Nat.ofDigitChars 10 run 0, places, exponent⟩, s)

/-- A number. -/
def number? : List Char → Option (Json × List Char)
  | '-' :: rest => unsigned? true rest
  | s => unsigned? false s

mutual

/-- A value and what follows it. -/
def value? : Nat → List Char → Option (Json × List Char)
  | 0, _ => none
  | fuel + 1, s =>
    match skipSpacing s with
    | '"' :: rest => quoted? rest
    | '[' :: rest =>
      match skipSpacing rest with
      | ']' :: rest => some (.array [], rest)
      | _ => (itemsAfter? fuel rest).map fun (items, rest) => (.array items, rest)
    | '{' :: rest =>
      match skipSpacing rest with
      | '}' :: rest => some (.object [], rest)
      | _ => (membersAfter? fuel rest).map fun (members, rest) => (ofMembers members, rest)
    | 't' :: 'r' :: 'u' :: 'e' :: rest => some (.bool true, rest)
    | 'f' :: 'a' :: 'l' :: 's' :: 'e' :: rest => some (.bool false, rest)
    | 'n' :: 'u' :: 'l' :: 'l' :: rest => some (.null, rest)
    | s => number? s

/-- The items of an array, at least one, and what follows the closing bracket. -/
def itemsAfter? : Nat → List Char → Option (List Json × List Char)
  | 0, _ => none
  | fuel + 1, s =>
    match value? fuel s with
    | none => none
    | some (v, rest) =>
      match skipSpacing rest with
      | ']' :: rest => some ([v], rest)
      | ',' :: rest => (itemsAfter? fuel rest).map fun (vs, rest) => (v :: vs, rest)
      | _ => none

/-- The members of an object, at least one, and what follows the closing brace. -/
def membersAfter? : Nat → List Char → Option (List (Option String × Json) × List Char)
  | 0, _ => none
  | fuel + 1, s =>
    match skipSpacing s with
    | '"' :: rest =>
      match quoted? rest with
      | none => none
      | some (key, rest) =>
        match skipSpacing rest with
        | ':' :: rest =>
          match value? fuel rest with
          | none => none
          | some (v, rest) =>
            match skipSpacing rest with
            | '}' :: rest => some ([(key.text?, v)], rest)
            | ',' :: rest =>
              (membersAfter? fuel rest).map fun (ms, rest) => ((key.text?, v) :: ms, rest)
            | _ => none
        | _ => none
    | _ => none

end

/-- The value that the characters write, if they write one and nothing else. -/
def readChars? (s : List Char) : Option Json :=
  match value? (2 * s.length + 2) s with
  | some (v, rest) => if (skipSpacing rest).isEmpty then some v else none
  | none => none

/-- The value that a text writes. -/
def read? (s : String) : Option Json :=
  readChars? s.toList

end PhotoIntake.Json
