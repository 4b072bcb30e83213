import PhotoIntake.Json.Basic

/-!
# Writing JSON

The compact form has no spacing.  The indented form puts every item and member on a line of its
own, two spaces deeper than what holds it, and has a space after each colon.
-/

namespace PhotoIntake.Json

/-- The lower-case hexadecimal digit of a value below sixteen. -/
def hexDigit (n : Nat) : Char :=
  Nat.digitChar n

/-- The form of a character inside quotes. -/
def escape (c : Char) : List Char :=
  if c = '"' then ['\\', '"']
  else if c = '\\' then ['\\', '\\']
  else if c = '\n' then ['\\', 'n']
  else if c = '\r' then ['\\', 'r']
  else if c = '\t' then ['\\', 't']
  else if c = '\x08' then ['\\', 'b']
  else if c = '\x0c' then ['\\', 'f']
  else if c.toNat < 0x20 then
    ['\\', 'u', '0', '0', hexDigit (c.toNat / 16), hexDigit (c.toNat % 16)]
  else [c]

/-- A text between quotes. -/
def quote (s : String) : List Char :=
  '"' :: s.toList.flatMap escape ++ ['"']

/-- The form of a number. -/
def Number.chars (n : Number) : List Char :=
  (if n.negative then ['-'] else []) ++ Decimal.digits n.whole ++
    (if n.places.isEmpty then [] else '.' :: n.places) ++
    match n.exponent with
    | none => []
    | some e => 'e' :: ((if e < 0 then ['-'] else []) ++ Decimal.digits e.natAbs)

mutual

/-- The compact form of a value. -/
def chars : Json → List Char
  | .null => ['n', 'u', 'l', 'l']
  | .bool true => ['t', 'r', 'u', 'e']
  | .bool false => ['f', 'a', 'l', 's', 'e']
  | .number n => n.chars
  | .text s => quote s
  | .brokenText => quote "\ufffd"
  | .array [] => ['[', ']']
  | .array (v :: rest) => '[' :: (chars v ++ itemChars rest)
  | .object [] => ['{', '}']
  | .object ((key, v) :: rest) => '{' :: (quote key ++ ':' :: (chars v ++ memberChars rest))

/-- The items after the first, each behind a comma, and the closing bracket. -/
def itemChars : List Json → List Char
  | [] => [']']
  | v :: rest => ',' :: (chars v ++ itemChars rest)

/-- The members after the first, each behind a comma, and the closing brace. -/
def memberChars : List (String × Json) → List Char
  | [] => ['}']
  | (key, v) :: rest => ',' :: (quote key ++ ':' :: (chars v ++ memberChars rest))

end

/-- The compact text of a value. -/
def write (v : Json) : String :=
  String.ofList (chars v)

/-- A line break and the indentation of a level. -/
def newLine (level : Nat) : List Char :=
  '\n' :: List.replicate (2 * level) ' '

mutual

/-- The indented form of a value that stands at a level. -/
def indentedChars (level : Nat) : Json → List Char
  | .array (v :: rest) =>
    '[' :: (newLine (level + 1) ++ indentedChars (level + 1) v ++ indentedItems level rest)
  | .object ((key, v) :: rest) =>
    '{' :: (newLine (level + 1) ++ quote key ++ ':' :: ' ' ::
      (indentedChars (level + 1) v ++ indentedMembers level rest))
  | v => chars v

/-- The items after the first and the closing bracket, which stands at the level. -/
def indentedItems (level : Nat) : List Json → List Char
  | [] => newLine level ++ [']']
  | v :: rest =>
    ',' :: (newLine (level + 1) ++ indentedChars (level + 1) v ++ indentedItems level rest)

/-- The members after the first and the closing brace, which stands at the level. -/
def indentedMembers (level : Nat) : List (String × Json) → List Char
  | [] => newLine level ++ ['}']
  | (key, v) :: rest =>
    ',' :: (newLine (level + 1) ++ quote key ++ ':' :: ' ' ::
      (indentedChars (level + 1) v ++ indentedMembers level rest))

end

/-- The indented text of a value. -/
def writeIndented (v : Json) : String :=
  String.ofList (indentedChars 0 v)

end PhotoIntake.Json
