/-!
# Quoted texts

A text stands between quotes in one of four ways: with escapes or as it is, on one line or on
several.  On several lines three quotes open and close, one or two quotes may stand inside, and a
line break behind the opening is no part of the text.
-/

namespace PhotoIntake.Toml

/-- A way to quote a text. -/
structure Quoting where
  quote : Char
  escapes : Bool
  lines : Bool
  deriving DecidableEq

namespace Quoting

/-- Escapes on one line. -/
def basic : Quoting :=
  ⟨'"', true, false⟩

/-- Escapes on several lines. -/
def basicLines : Quoting :=
  ⟨'"', true, true⟩

/-- As it is, on one line. -/
def literal : Quoting :=
  ⟨'\'', false, false⟩

/-- As it is, on several lines. -/
def literalLines : Quoting :=
  ⟨'\'', false, true⟩

end Quoting

/-- Control characters other than the tab; a document has them in no text. -/
def isControl (c : Char) : Bool :=
  (c.toNat < 0x20 && c != '\t') || c == '\x7f'

/-! ## Reading -/

/-- The value of a digit in a base up to sixteen. -/
def digitIn? (base : Nat) (c : Char) : Option Nat :=
  let value : Option Nat :=
    if '0' ≤ c ∧ c ≤ '9' then some (c.toNat - '0'.toNat)
    else if 'a' ≤ c ∧ c ≤ 'f' then some (c.toNat - 'a'.toNat + 10)
    else if 'A' ≤ c ∧ c ≤ 'F' then some (c.toNat - 'A'.toNat + 10)
    else none
  value.filter (· < base)

/-- The value of digits, the first of them the highest. -/
def ofDigits? (base : Nat) (s : List Char) : Option Nat :=
  s.foldlM (fun n c => (digitIn? base c).map (base * n + ·)) 0

/-- The character with a number that is one. -/
def character? (n : Nat) : Option Char :=
  if n.isValidChar then some (Char.ofNat n) else none

/-- The character of exactly as many hexadecimal digits as demanded. -/
def hexScalar? (width : Nat) (s : List Char) : Option Char :=
  if s.length < width then none else (ofDigits? 16 (s.take width)).bind character?

/-- The character that an escape stands for, and the number of characters behind the backslash
that make up the escape. -/
def escaped? : List Char → Option (Char × Nat)
  | 'b' :: _ => some ('\x08', 1)
  | 't' :: _ => some ('\t', 1)
  | 'n' :: _ => some ('\n', 1)
  | 'f' :: _ => some ('\x0c', 1)
  | 'r' :: _ => some ('\r', 1)
  | '"' :: _ => some ('"', 1)
  | '\\' :: _ => some ('\\', 1)
  | 'u' :: rest => (hexScalar? 4 rest).map (·, 5)
  | 'U' :: rest => (hexScalar? 8 rest).map (·, 9)
  | _ => none

/-- Space or tab. -/
def isSpacing (c : Char) : Bool :=
  c == ' ' || c == '\t'

/-- Space, tab or line break. -/
def isSpacingOrBreak (c : Char) : Bool :=
  isSpacing c || c == '\n'

/-- What follows the spacing behind a backslash that ends a line, if it ends one. -/
def afterLineEnd? (s : List Char) : Option { rest : List Char // rest.length ≤ s.length } :=
  match h : s.dropWhile isSpacing with
  | '\n' :: rest =>
    some ⟨rest.dropWhile isSpacingOrBreak, by
      have hs : (s.dropWhile isSpacing).length ≤ s.length := (List.dropWhile_suffix _).length_le
      have hr : (rest.dropWhile isSpacingOrBreak).length ≤ rest.length :=
        (List.dropWhile_suffix _).length_le
      rw [h] at hs
      simp only [List.length_cons] at hs
      omega⟩
  | _ => none

/-- The characters up to the closing quote or quotes, and what follows them. -/
def body? (q : Quoting) (s : List Char) : Option (List Char × List Char) :=
  match s with
  | [] => none
  | c :: rest =>
    let keep (taken : List Char) (r : Option (List Char × List Char)) :=
      r.map fun (cs, after) => (taken ++ cs, after)
    if c = q.quote then
      if q.lines then
        let run := (rest.takeWhile (· = q.quote)).length + 1
        if run < 3 then keep [c] (body? q rest)
        else
          let inside := min (run - 3) 2
          some (List.replicate inside c, rest.drop (inside + 2))
      else some ([], rest)
    else if c = '\\' ∧ q.escapes then
      match if q.lines then afterLineEnd? rest else none with
      | some ⟨after, shorter⟩ =>
        have : after.length < rest.length + 1 := Nat.lt_succ_of_le shorter
        body? q after
      | none =>
        match escaped? rest with
        | some (e, n) => keep [e] (body? q (rest.drop n))
        | none => none
    else if c = '\n' then if q.lines then keep [c] (body? q rest) else none
    else if isControl c then none
    else keep [c] (body? q rest)
termination_by s.length
decreasing_by all_goals simp only [List.length_cons, List.length_drop]; omega

/-- A text with its opening and closing quotes, and what follows it. -/
def quoted? (s : List Char) : Option (String × List Char) :=
  let found := match s with
    | '"' :: '"' :: '"' :: '\n' :: rest => body? .basicLines rest
    | '"' :: '"' :: '"' :: rest => body? .basicLines rest
    | '\'' :: '\'' :: '\'' :: '\n' :: rest => body? .literalLines rest
    | '\'' :: '\'' :: '\'' :: rest => body? .literalLines rest
    | s => lineQuoted? s
  found.map fun (cs, rest) => (String.ofList cs, rest)
where
  /-- A text quoted on one line, and what follows it. -/
  lineQuoted? : List Char → Option (List Char × List Char)
    | '"' :: rest => body? .basic rest
    | '\'' :: rest => body? .literal rest
    | _ => none

/-! ## Writing -/

/-- The greatest number of equal characters in a row. -/
def longestRun (c : Char) (s : List Char) : Nat :=
  (s.foldl (fun (now, most) d =>
    let now := if d = c then now + 1 else 0
    (now, max most now)) (0, 0)).2

/-- The text has a character that only an escape can write. -/
def needsEscape (s : List Char) : Bool :=
  s.any fun c => isControl c && c != '\n'

/-- The way in which a text is written: the plainest one that needs no escapes, or else the one
with escapes. -/
def Quoting.choose (s : List Char) : Quoting :=
  let breaks := s.contains '\n'
  let backslashes := s.contains '\\'
  let double := longestRun '"' s
  let single := longestRun '\'' s
  if needsEscape s then if breaks then .basicLines else .basic
  else if !backslashes && double = 0 && !breaks then .basic
  else if single = 0 && !breaks then .literal
  else if !backslashes && double ≤ 2 then .basicLines
  else if single ≤ 2 then .literalLines
  else if breaks then .basicLines
  else .basic

/-- The hexadecimal digits of a number, in upper case, with zeros in front up to four. -/
def hexDigits (n : Nat) : List Char :=
  let digits := (Nat.toDigits 16 n).map Char.toUpper
  List.replicate (4 - digits.length) '0' ++ digits

/-- The form of a character that is no quote, where escapes are read. -/
def escape (lines : Bool) (c : Char) : List Char :=
  if c = '\\' then ['\\', '\\']
  else if c = '\n' then if lines then ['\n'] else ['\\', 'n']
  else if c = '\t' then ['\\', 't']
  else if c = '\r' then ['\\', 'r']
  else if c = '\x08' then ['\\', 'b']
  else if c = '\x0c' then ['\\', 'f']
  else if isControl c then '\\' :: 'u' :: hexDigits c.toNat
  else [c]

/-- The form of a text where escapes are read.  On one line every quote has a backslash in front,
on several lines every third one in a row.  Quotes in a row are counted from the last escape. -/
def escapeAll (lines : Bool) (run : Nat) : List Char → List Char
  | [] => []
  | c :: rest =>
    if c = '"' then
      if (if lines then 2 else 0) ≤ run then '\\' :: '"' :: escapeAll lines 0 rest
      else '"' :: escapeAll lines (run + 1) rest
    else escape lines c ++ escapeAll lines 0 rest

/-- A text with its quotes. -/
def Quoting.write (q : Quoting) (s : List Char) : List Char :=
  let marks := List.replicate (if q.lines then 3 else 1) q.quote
  let start := if q.lines ∧ s.contains '\n' then ['\n'] else []
  marks ++ start ++ (if q.escapes then escapeAll q.lines 0 s else s) ++ marks

/-- A text with its quotes, in the way chosen for it. -/
def quote (s : String) : List Char :=
  (Quoting.choose s.toList).write s.toList

end PhotoIntake.Toml
