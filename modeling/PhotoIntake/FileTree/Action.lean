import PhotoIntake.FileTree.Locate

/-!
# Actions on a file tree

Every action may fail after it has changed the tree: a failed write leaves a shorter file, a
failed creation of nested folders leaves the outer ones.  So an action gives back the new tree
with its result.
-/

namespace PhotoIntake

/-- An action on a file tree: its result, and the tree after it. -/
abbrev FileAction (α : Type) := ExceptT FileError (StateM FileTree) α

namespace FileAction

/-- The result of an action on a tree and the tree after it. -/
def runOn {α : Type} (action : FileAction α) (t : FileTree) : Except FileError α × FileTree :=
  StateT.run (ExceptT.run action) t

/-- The tree after an action, whether it fails or not. -/
def treeAfter {α : Type} (action : FileAction α) (t : FileTree) : FileTree :=
  (action.runOn t).2

/-- The action succeeds on the tree. -/
def succeeds {α : Type} (action : FileAction α) (t : FileTree) : Bool :=
  match (action.runOn t).1 with
  | .ok _ => true
  | .error _ => false

/-- An action that decides its result by looking at the tree. -/
def look {α : Type} (f : FileTree → Except FileError α) : FileAction α := do
  let t ← get
  match f t with
  | .ok a => pure a
  | .error e => throw e

end FileAction

namespace FileTree

/-- The bytes of the file at a location. -/
def contentAt (t : FileTree) (l : Location) : Except FileError ByteArray :=
  match t.get? l with
  | some (.file content _) => .ok content
  | _ => .error .missing

/-- The bytes of the file that a path means.  The full device reads as a zero byte. -/
def contentOf (t : FileTree) (p : Path) : Except FileError ByteArray :=
  match t.locate true p with
  | .error e => .error e
  | .ok ⟨_, none⟩ => .error .missing
  | .ok ⟨_, some (.file content _)⟩ =>
    if p.demandsFolder then .error .notFolder else .ok content
  | .ok ⟨_, some .fullDevice⟩ => .ok ⟨#[0]⟩
  | .ok ⟨_, some _⟩ => .error .isFolder

/-- The text of the file that a path means, if its bytes are UTF-8. -/
def textOf? (t : FileTree) (p : Path) : Option String :=
  match t.contentOf p with
  | .ok content => String.fromUTF8? content
  | .error _ => none

/-- The tree after as many of the bytes as there is room for were written to the file at a
location, and whether all of them were. -/
def fill (t : FileTree) (l : Location) (content : ByteArray) : FileTree × Bool :=
  match t.room with
  | none => (t.set l (.file content t.clock), true)
  | some room =>
    let written := content.extract 0 (min room content.size)
    ({ t.set l (.file written t.clock) with room := some (room - written.size) },
      content.size ≤ room)

end FileTree

namespace FileAction

open FileTree

/-- Open a file for writing, which makes it empty, creating it if its folder is there.  The
result is its location, or none for the full device. -/
def openEmpty (p : Path) : FileAction (Option Location) := do
  let place ← look fun t => t.locate true p
  if p.demandsFolder then throw .isFolder
  match place.entry with
  | some .folder => throw .isFolder
  | some .fullDevice => pure none
  | _ =>
    modify fun t => t.set place.location (.file ByteArray.empty t.clock)
    pure (some place.location)

/-- Write bytes to an opened file. -/
def writeAll (opened : Option Location) (content : ByteArray) : FileAction Unit := do
  match opened with
  | none => if content.isEmpty then pure () else throw .noRoom
  | some l =>
    let (t, complete) := (← get).fill l content
    set t
    if complete then pure () else throw .noRoom

/-- Make the file that a path means hold the bytes. -/
def writeFile (p : Path) (content : ByteArray) : FileAction Unit := do
  writeAll (← openEmpty p) content

/-- Create one folder. -/
def createFolder (p : Path) : FileAction Unit := do
  let place ← look fun t => t.locate false p
  match place.entry with
  | some _ => throw .occupied
  | none => modify fun t => t.set place.location .folder

/-- Create a folder that a path means unless it is there. -/
def ensureFolder (p : Path) : FileAction Unit :=
  tryCatch (createFolder p) fun e => do
    if (← get).isFolder p then pure () else throw e

/-- Create the folder with the given components, innermost first, and the folders around it. -/
def ensureFoldersUp : List Path.Component → FileAction Unit
  | [] => pure ()
  | c :: outer => do
    let p := Path.ofComponents (c :: outer).reverse
    tryCatch (ensureFolder p) fun
      | .missing => do
        ensureFoldersUp outer
        ensureFolder p
      | e => throw e

/-- Create the folder that a path means and the folders around it. -/
def createFolders (p : Path) : FileAction Unit :=
  ensureFoldersUp p.components.reverse

/-- Copy a file over another one.  The target is emptied before the source is read. -/
def copyFile (source target : Path) : FileAction Unit := do
  let l ← look fun t =>
    match t.entry? source with
    | some (l, .file _ _) => .ok l
    | some _ => .error .notFile
    | none => .error .missing
  let opened ← openEmpty target
  let content ← look (·.contentAt l)
  writeAll opened content

/-- The path ends in a name, slashes behind it apart, so what it means can be renamed. -/
def endsInName (p : Path) : Bool :=
  match ((Path.pieces p.text).filter (· != "")).getLast? with
  | some piece => piece != "." && piece != ".."
  | none => false

/-- The location belongs to the devices, which are kept apart from files. -/
def isAmongDevices (l : Location) : Bool :=
  l.head? == some "dev"

/-- Put what stands at one location, with all below it, at another. -/
def moveEntry (source target : Location) : FileAction Unit :=
  modify fun t =>
    let t := t.erase target
    { t with entries := t.entries.map fun (l, e) =>
        if source.isPrefixOf l then (target ++ l.drop source.length, e) else (l, e) }

/-- Give what a path leads to another place; links at the end are not followed.  An entry in the
way is replaced, unless one of the two is a folder and the other is not, or a folder in the way
holds something. -/
def rename (source target : Path) : FileAction Unit := do
  let origin ← look fun t => t.placeOf false source
  let goal ← look fun t => t.placeOf false target
  let some moved := origin.entry | throw .missing
  if !endsInName source || !endsInName target then throw .badName
  if (source.demandsFolder || target.demandsFolder) && !moved.isFolder then throw .notFolder
  if isAmongDevices origin.location != isAmongDevices goal.location then throw .otherDevice
  if origin.location == goal.location then pure ()
  else if moved.isFolder && origin.location.isPrefixOf goal.location then throw .insideItself
  else
    match goal.entry with
    | none => moveEntry origin.location goal.location
    | some .folder =>
      if !moved.isFolder then throw .isFolder
      else if !((← get).below goal.location).isEmpty then throw .folderNotEmpty
      else moveEntry origin.location goal.location
    | some _ =>
      if moved.isFolder then throw .notFolder else moveEntry origin.location goal.location

/-- Remove what a path means, if it is no folder. -/
def removeFile (p : Path) : FileAction Unit := do
  let place ← look fun t => t.locate false p
  match place.entry with
  | none => throw .missing
  | some .folder => throw .isFolder
  | some _ =>
    if p.demandsFolder then throw .notFolder
    modify fun t => t.erase place.location

end FileAction

end PhotoIntake
