import PhotoIntake.FileTree.Basic

/-!
# Finding what a path means

A path is followed component by component.  A link on the way is replaced by its target; the
number of links that may be followed is bounded, so a loop of links is an error.
-/

namespace PhotoIntake.FileTree

/-- A location reached by a path, with what stands there. -/
structure Place where
  location : Location
  entry : Option Entry

/-- The greatest length of a name, in bytes. -/
def maxNameLength : Nat := 255

/-- The length that a path has to stay below, in bytes. -/
def pathLengthLimit : Nat := 4096

/-- The number of links that one path may follow. -/
def maxLinks : Nat := 40

/-- Where following a path ends: at a place, or at a link with the way that is left. -/
inductive Step where
  | arrived (place : Place)
  | detour (start : Location) (way : List Path.Component)

/-- The way that the target of a link describes.  One that asks for a folder ends in a dot, so that
it leads on from there. -/
def linkWay (target : Path) : List Path.Component :=
  target.components ++ if target.demandsFolder then [.current] else []

/-- Follow components down from a location, up to the first link. -/
def advance (t : FileTree) (followLast : Bool) (l : Location) :
    List Path.Component → Except FileError Step
  | [] => .ok (.arrived ⟨l, t.get? l⟩)
  | .root :: rest => advance t followLast [] rest
  | .current :: rest => advance t followLast l rest
  | .parent :: rest => advance t followLast l.dropLast rest
  | .name s :: rest =>
    if maxNameLength < s.utf8ByteSize then .error .nameTooLong
    else
      let next := l ++ [s]
      match t.get? next with
      | none => if rest.isEmpty then .ok (.arrived ⟨next, none⟩) else .error .missing
      | some .folder => advance t followLast next rest
      | some (.link target) =>
        if rest.isEmpty && !followLast then .ok (.arrived ⟨next, some (.link target)⟩)
        else .ok (.detour l (linkWay target ++ rest))
      | some e => if rest.isEmpty then .ok (.arrived ⟨next, some e⟩) else .error .notFolder

/-- Go on from a step, through at most the given number of links. -/
def follow (t : FileTree) (followLast : Bool) : Nat → Except FileError Step → Except FileError Place
  | _, .error e => .error e
  | _, .ok (.arrived place) => .ok place
  | 0, .ok (.detour _ _) => .error .linkLoop
  | links + 1, .ok (.detour start way) => follow t followLast links (advance t followLast start way)

/-- The place that a path leads to.  The last component may be missing; a link at the end is
followed on demand. -/
def placeOf (t : FileTree) (followLast : Bool) (p : Path) : Except FileError Place :=
  if p.text.isEmpty then .error .missing
  else if p.text.toList.contains '\x00' then .error .badName
  else if pathLengthLimit ≤ p.text.utf8ByteSize then .error .nameTooLong
  else follow t followLast maxLinks (advance t followLast t.working p.components)

/-- The place that a path means.  A link at the end is followed on demand, and always when the path
asks for a folder. -/
def locate (t : FileTree) (followLast : Bool) (p : Path) : Except FileError Place :=
  t.placeOf (followLast || p.demandsFolder) p

/-- The entry that a path means, links followed. -/
def entry? (t : FileTree) (p : Path) : Option (Location × Entry) :=
  match t.locate true p with
  | .ok ⟨l, some e⟩ => if p.demandsFolder && !e.isFolder then none else some (l, e)
  | _ => none

/-- Whether the path means something that is there. -/
def isThere (t : FileTree) (p : Path) : Bool :=
  (t.entry? p).isSome

/-- Whether the path means a folder. -/
def isFolder (t : FileTree) (p : Path) : Bool :=
  match t.entry? p with
  | some (_, e) => e.isFolder
  | none => false

/-- Whether the path means a file. -/
def isFile (t : FileTree) (p : Path) : Bool :=
  match t.entry? p with
  | some (_, .file _ _) => true
  | _ => false

end PhotoIntake.FileTree
