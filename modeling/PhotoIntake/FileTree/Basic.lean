import PhotoIntake.Path

/-!
# File trees

The state of a file system as a value: a list of entries by location.  A location is the list of
names from the root down; the root is a folder that is always there.
-/

namespace PhotoIntake

/-- The names from the root down to an entry. -/
abbrev Location := List String

/-- What stands at a location.  Times are nanoseconds since 1970. -/
inductive Entry where
  | file (content : ByteArray) (modified : Int)
  | folder
  | link (target : Path)
  | fullDevice
  deriving BEq

namespace Entry

/-- The entry is a folder. -/
def isFolder : Entry → Bool
  | folder => true
  | _ => false

end Entry

/-- A file system.  Relative paths start at the working folder.  The room is the number of bytes
that can still be written; with none there is no limit. -/
structure FileTree where
  entries : List (Location × Entry)
  working : Location
  room : Option Nat
  clock : Int

/-- Why an operation on files fails. -/
inductive FileError where
  | missing
  | notFolder
  | isFolder
  | notFile
  | occupied
  | folderNotEmpty
  | insideItself
  | otherDevice
  | noRoom
  | linkLoop
  | nameTooLong
  | badName
  deriving DecidableEq

namespace FileTree

/-- The entry at a location. -/
def get? (t : FileTree) (l : Location) : Option Entry :=
  if l.isEmpty then some .folder else t.entries.lookup l

/-- The tree with an entry at a location. -/
def set (t : FileTree) (l : Location) (e : Entry) : FileTree :=
  { t with entries := t.entries.filter (·.1 != l) ++ [(l, e)] }

/-- The tree with nothing at a location. -/
def erase (t : FileTree) (l : Location) : FileTree :=
  { t with entries := t.entries.filter (·.1 != l) }

/-- The locations directly or indirectly below a location. -/
def below (t : FileTree) (l : Location) : List (Location × Entry) :=
  t.entries.filter fun e => l.isPrefixOf e.1 && e.1 != l

/-- The names of the entries directly below a location. -/
def namesIn (t : FileTree) (l : Location) : List String :=
  (t.below l).filterMap fun e => if e.1.length = l.length + 1 then e.1.getLast? else none

/-- An empty tree with a working folder. -/
def empty (working : Location) : FileTree :=
  { entries := [(["dev"], .folder), (["dev", "full"], .fullDevice)] ++
      (List.range working.length).map fun n => (working.take (n + 1), .folder)
    working := working
    room := none
    clock := 0 }

end FileTree

end PhotoIntake
