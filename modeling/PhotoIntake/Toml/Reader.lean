import PhotoIntake.Toml.Assembly
import PhotoIntake.Toml.Scalar

/-!
# Reading TOML

A document is read into its statements, and the statements make the table.  Arrays and tables
inside values are nested up to a bound, and so are the names of a key.
-/

namespace PhotoIntake.Toml

/-- The text with line feeds for its line breaks; a return that stands elsewhere stays. -/
def unifyBreaks : List Char → List Char
  | '\r' :: '\n' :: rest => '\n' :: unifyBreaks rest
  | c :: rest => c :: unifyBreaks rest
  | [] => []

/-- A character of a comment. -/
def isCommentChar (c : Char) : Bool :=
  c != '\n' && !isControl c

/-- What follows spacing, line breaks and comments; the flag says that a comment goes on. -/
def skipGaps : Bool → List Char → List Char
  | _, [] => []
  | true, c :: rest =>
    if isCommentChar c then skipGaps true rest
    else if c = '\n' then skipGaps false rest
    else c :: rest
  | false, c :: rest =>
    if isSpacingOrBreak c then skipGaps false rest
    else if c = '#' then skipGaps true rest
    else c :: rest

/-- What follows the end of a line, which may hold spacing and a comment. -/
def endLine? (s : List Char) : Option (List Char) :=
  match s.dropWhile isSpacing with
  | '#' :: rest => afterBreak? (rest.dropWhile isCommentChar)
  | s => afterBreak? s
where
  /-- What follows a line break, or the end of the text. -/
  afterBreak? : List Char → Option (List Char)
    | [] => some []
    | '\n' :: rest => some rest
    | _ => none

/-! ## Keys -/

/-- The greatest number of names in a key, and of arrays and tables around a value. -/
def maxDepth : Nat := 79

/-- A character of a name without quotes. -/
def isBareChar (c : Char) : Bool :=
  c.isAlphanum || c == '_' || c == '-'

/-- A name, and what follows it. -/
def name? (s : List Char) : Option (String × List Char) :=
  match quoted?.lineQuoted? s with
  | some (cs, rest) => some (String.ofList cs, rest)
  | none =>
    let run := s.takeWhile isBareChar
    if run.isEmpty then none else some (String.ofList run, s.dropWhile isBareChar)

/-- A key of at most so many names with points between them, and what follows it. -/
def names? : Nat → List Char → Option (List String × List Char)
  | 0, _ => none
  | most + 1, s =>
    match name? (s.dropWhile isSpacing) with
    | none => none
    | some (name, rest) =>
      match rest.dropWhile isSpacing with
      | '.' :: rest => (names? most rest).map fun (names, rest) => (name :: names, rest)
      | rest => some ([name], rest)

/-- A key with its equals sign, and what follows the spacing behind that. -/
def assignedKey? (s : List Char) : Option (List String × List Char) :=
  match names? maxDepth s with
  | some (key, '=' :: rest) => some (key, rest.dropWhile isSpacing)
  | _ => none

/-! ## Values -/

/-- The items of an array behind its bracket, and what follows the closing one.  A comma may stand
behind the last item. -/
def items? (read : List Char → Option (Toml × List Char)) :
    Nat → List Char → Option (List Toml × List Char)
  | 0, _ => none
  | fuel + 1, s =>
    match skipGaps false s with
    | ']' :: rest => some ([], rest)
    | s =>
      match read s with
      | none => none
      | some (v, rest) =>
        match skipGaps false rest with
        | ',' :: rest => (items? read fuel rest).map fun (items, rest) => (v :: items, rest)
        | ']' :: rest => some ([v], rest)
        | _ => none

/-- The assignments of a table between braces, at least one, and what follows the closing brace.
They stand on one line. -/
def assignments? (read : List Char → Option (Toml × List Char)) :
    Nat → List Char → Option (List (List String × Toml) × List Char)
  | 0, _ => none
  | fuel + 1, s =>
    match assignedKey? s with
    | none => none
    | some (key, rest) =>
      match read rest with
      | none => none
      | some (v, rest) =>
        match rest.dropWhile isSpacing with
        | ',' :: rest =>
          (assignments? read fuel rest).map fun (others, rest) => ((key, v) :: others, rest)
        | '}' :: rest => some ([(key, v)], rest)
        | _ => none

/-- A table between braces, behind the opening one. -/
def inlineTable? (read : List Char → Option (Toml × List Char)) (s : List Char) :
    Option (Toml × List Char) :=
  match s.dropWhile isSpacing with
  | '}' :: rest => some (.table [], rest)
  | s =>
    match assignments? read s.length s with
    | some (assignments, rest) => (ofAssignments? assignments).map (·, rest)
    | none => none

/-- A value without parts. -/
def simple? (s : List Char) : Option (Toml × List Char) :=
  match quoted? s with
  | some (content, rest) => some (.text content, rest)
  | none => scalar? s

/-- A value with at most so many arrays and tables around its innermost parts. -/
def value? : Nat → List Char → Option (Toml × List Char)
  | 0, s => simple? s
  | depth + 1, s =>
    match s with
    | '[' :: rest =>
      (items? (value? depth) (rest.length + 1) rest).map fun (items, rest) => (.array items, rest)
    | '{' :: rest => inlineTable? (value? depth) rest
    | s => simple? s

/-! ## Documents -/

/-- A statement, and what follows it on its line. -/
def statement? (s : List Char) : Option (Statement × List Char) :=
  match s with
  | '[' :: '[' :: rest =>
    match names? maxDepth rest with
    | some (key, ']' :: ']' :: rest) => some (.item key, rest)
    | _ => none
  | '[' :: rest =>
    match names? maxDepth rest with
    | some (key, ']' :: rest) => some (.table key, rest)
    | _ => none
  | s =>
    match assignedKey? s with
    | some (key, rest) => (value? maxDepth rest).map fun (v, rest) => (.assign key v, rest)
    | none => none

/-- The statements of a document, each of which ends its line. -/
def statements? : Nat → List Char → Option (List Statement)
  | 0, _ => none
  | fuel + 1, s =>
    match skipGaps false s with
    | [] => some []
    | s => do
      let (first, rest) ← statement? s
      let rest ← endLine? rest
      return first :: (← statements? fuel rest)

/-- The table that a document says.  A byte order mark in front counts for nothing. -/
def read? (s : String) : Option Toml :=
  let chars := unifyBreaks s.toList
  let chars := if chars.head? = some '\ufeff' then chars.tail else chars
  (statements? (chars.length + 1) chars).bind ofStatements?

end PhotoIntake.Toml
