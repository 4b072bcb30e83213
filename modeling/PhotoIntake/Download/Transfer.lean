import PhotoIntake.Decimal.Whole
import PhotoIntake.FileTree.Action

/-!
# Transferring files

A file goes to a target that is chosen free: a name that is taken gets a number in front of its
extension.  The folders of the target are created.
-/

namespace PhotoIntake

/-- What happens to the source of a transferred file. -/
inductive TransferMode where
  | copy
  | move
  deriving DecidableEq

namespace TransferMode

/-- The name of the mode. -/
def title : TransferMode → String
  | copy => "copy"
  | move => "move"

/-- The mode with the given name. -/
def ofTitle? (s : String) : Option TransferMode :=
  [copy, move].find? (·.title == s)

end TransferMode

namespace Transfer

/-- The name with a number in front of its extension. -/
def numbered (name : String) (i : Nat) : String :=
  let path : Path := ⟨name⟩
  path.stem?.getD name ++ "-" ++ Decimal.text i ++
    match path.extension? with
    | some e => "." ++ e
    | none => ""

/-- The first free name among those numbered from `i` on; the fuel bounds the search. -/
def freeFrom (t : FileTree) (folder : Path) (name : String) (i : Nat) : Nat → String
  | 0 => numbered name i
  | fuel + 1 =>
    if t.isThere (folder.join ⟨numbered name i⟩) then freeFrom t folder name (i + 1) fuel
    else numbered name i

/-- A name that is free in the folder: the given one, else the first numbered one.  Every name
that is taken is an entry of the tree, so the search ends within as many steps. -/
def freeName (t : FileTree) (folder : Path) (name : String) : String :=
  if t.isThere (folder.join ⟨name⟩) then freeFrom t folder name 1 (t.entries.length + 1)
  else name

open FileAction

/-- Copy a file and remove it.  A source that cannot be removed stays as a duplicate. -/
def copyThenRemove (source target : Path) : FileAction Unit := do
  copyFile source target
  tryCatch (removeFile source) fun _ => pure ()

/-- Transfer a file to a target.  A file that cannot be renamed is copied and removed. -/
def run (mode : TransferMode) (source target : Path) : FileAction Unit := do
  match target.parentComponents? with
  | some outer => createFolders (Path.ofComponents outer)
  | none => pure ()
  match mode with
  | .copy => copyFile source target
  | .move => tryCatch (rename source target) fun _ => copyThenRemove source target

end Transfer

end PhotoIntake
