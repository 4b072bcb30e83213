import PhotoIntake.FileTree.Locate
import PhotoIntake.Text.Casing

/-!
# Walking a source

A walk lists what is in a folder: the folder, then its entries in the order of their names, each
folder followed by what is in it.  Links are listed and not followed, except for the first folder.
-/

namespace PhotoIntake

/-- An entry met on a walk. -/
structure Visit where
  path : Path
  name : String
  isFile : Bool
  deriving DecidableEq

/-- What a walk meets, in order.  What cannot be read is nothing. -/
abbrev Walk := List (Option Visit)

namespace Walk

/-- The extensions of image files. -/
def imageExtensions : List String :=
  ["jpg", "raf", "nef", "dng"]

/-- The path has the extension of an image, in any case. -/
def isImage (p : Path) : Bool :=
  match p.extension? with
  | some e => imageExtensions.contains (Text.lower e)
  | none => false

/-- What is in a folder down to a depth. -/
def inFolder (t : FileTree) : Nat → Location → Path → Walk
  | 0, _, _ => []
  | depth + 1, l, p =>
    ((t.namesIn l).mergeSort fun a b => !(b < a)).flatMap fun name =>
      let next := l ++ [name]
      let path := p.join ⟨name⟩
      match t.get? next with
      | some .folder => some ⟨path, name, false⟩ :: inFolder t depth next path
      | some (.file _ _) => [some ⟨path, name, true⟩]
      | some _ => [some ⟨path, name, false⟩]
      | none => [none]

/-- The walk of a source down to a depth. -/
def toDepth (t : FileTree) (depth : Nat) (root : Path) : Walk :=
  let name := root.fileName?.getD root.text
  match t.locate false root with
  | .ok ⟨l, some .folder⟩ => some ⟨root, name, false⟩ :: inFolder t depth l root
  | .ok ⟨_, some (.file _ _)⟩ =>
    if root.demandsFolder then [none] else [some ⟨root, name, true⟩]
  | .ok ⟨_, some (.link _)⟩ =>
    match t.entry? root with
    | some (l, .folder) => some ⟨root, name, false⟩ :: inFolder t depth l root
    | some _ => [some ⟨root, name, false⟩]
    | none => [none]
  | .ok ⟨_, some .fullDevice⟩ => [some ⟨root, name, false⟩]
  | _ => [none]

/-- The walk of a source, with or without the folders in it.  No folder lies deeper than the tree
has entries. -/
def ofSource (t : FileTree) (root : Path) (withSubfolders : Bool) : Walk :=
  toDepth t (if withSubfolders then t.entries.length else 1) root

/-- The image files of a walk. -/
def images (w : Walk) : List Visit :=
  (w.filterMap id).filter fun v => v.isFile && isImage v.path

end Walk

end PhotoIntake
