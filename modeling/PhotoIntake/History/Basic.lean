import PhotoIntake.Calendar.Notation
import PhotoIntake.FileTree.Action

/-!
# What is known of earlier downloads

A file was downloaded before if one of the same name, size and modification time was.  A history
is a table with one row for each such triple.
-/

namespace PhotoIntake

/-- What a file is recognised by. -/
structure FileIdentity where
  name : String
  size : Nat
  modified : Float

namespace FileIdentity

/-- Seconds since 1970 of a time in nanoseconds; no time before 1970 is told apart from 1970. -/
def seconds (nanos : Int) : Float :=
  let n := nanos.toNat
  Float.ofNat (n / 1000000000) + Float.ofNat (n % 1000000000) / 1e9

/-- The time in nanoseconds of a number of seconds since 1970. -/
def nanos (seconds : Float) : Int :=
  let size := seconds.abs
  let whole := size.floor
  let n : Int := whole.toUInt64.toNat * 1000000000 + ((size - whole) * 1e9).round.toUInt64.toNat
  if seconds < 0 then -n else n

/-- The identity of what a path means. -/
def ofPath (t : FileTree) (p : Path) : Except FileError FileIdentity :=
  match t.locate true p with
  | .error e => .error e
  | .ok ⟨_, none⟩ => .error .missing
  | .ok ⟨_, some e⟩ =>
    if p.demandsFolder && !e.isFolder then .error .notFolder
    else
      let (size, modified) := match e with
        | .file content modified => (content.size, modified)
        | _ => (0, t.clock)
      .ok ⟨p.fileName?.getD "", size, seconds modified⟩

end FileIdentity

namespace History

/-- The columns that tell rows apart.  The time is kept by the bits of its number. -/
structure Key where
  name : String
  size : Nat
  modified : UInt64
  deriving DecidableEq

/-- The key of an identity; the two zeros are one time, and what is no number is none. -/
def keyOf? (id : FileIdentity) : Option Key :=
  if id.modified.isNaN then none
  else if id.modified == 0 then some ⟨id.name, id.size, 0⟩
  else some ⟨id.name, id.size, id.modified.toBits⟩

/-- What is known of a download. -/
structure Download where
  target : String
  time : Option Calendar.DateTime
  deriving DecidableEq

/-- A download to be recorded. -/
structure Record where
  identity : FileIdentity
  target : String
  time : Calendar.DateTime

/-- A row of the table.  The time is kept as a text. -/
structure Row where
  key : Key
  target : String
  time : String
  deriving DecidableEq

/-- The row of a record. -/
def Record.row? (r : Record) : Option Row :=
  (keyOf? r.identity).map fun key => ⟨key, r.target, r.time.text .space⟩

/-- What a row tells. -/
def Row.download (row : Row) : Download :=
  ⟨row.target, Calendar.DateTime.read? .space row.time⟩

end History

/-- The rows of earlier downloads, no two with the same key. -/
structure History where
  rows : List History.Row
  deriving DecidableEq

namespace History

/-- A history without rows. -/
def empty : History :=
  ⟨[]⟩

/-- What is known of the file with the given identity. -/
def lookup (h : History) (id : FileIdentity) : Option Download :=
  match keyOf? id with
  | some key => (h.rows.find? (·.key == key)).map Row.download
  | none => none

/-- The history with a row, in place of the one with its key. -/
def put (h : History) (row : Row) : History :=
  ⟨h.rows.filter (·.key != row.key) ++ [row]⟩

/-- The history with all records, or none of them if one has no key. -/
def record? (h : History) (records : List Record) : Option History :=
  (records.mapM Record.row?).map fun rows => rows.foldl put h

/-- The number of rows. -/
def count (h : History) : Nat :=
  h.rows.length

end History

end PhotoIntake
