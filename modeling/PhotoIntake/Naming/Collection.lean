import PhotoIntake.FileTree.Action
import PhotoIntake.Json.Reader
import PhotoIntake.Json.Writer
import PhotoIntake.Naming.Builtin
import PhotoIntake.Naming.Template.Codec

/-!
# Template collections

The builtin templates with the templates of the user, which are kept in a file.  The user's
templates are shelved by purpose, each shelf in increasing order of keys.
-/

namespace PhotoIntake.Naming

/-- Templates in increasing order of their keys. -/
abbrev Shelf := List Template

namespace Shelf

/-- The template with the given key. -/
def get? (shelf : Shelf) (key : String) : Option Template :=
  shelf.find? (·.key == key)

/-- The shelf with a template, in place of the one with its key. -/
def insert (template : Template) : Shelf → Shelf
  | [] => [template]
  | t :: rest =>
    if template.key < t.key then template :: t :: rest
    else if template.key = t.key then template :: rest
    else t :: insert template rest

/-- The shelf without the template of the given key. -/
def erase (shelf : Shelf) (key : String) : Shelf :=
  List.filter (·.key != key) shelf

/-- The shelf with its template of the given key changed. -/
def change (shelf : Shelf) (key : String) (f : Template → Template) : Shelf :=
  List.map (fun t => if t.key = key then f t else t) shelf

/-- The written form of the shelf: an object with a member a template. -/
def toJson (shelf : Shelf) : Json :=
  .object (List.map (fun t => (t.key, t.toJson)) shelf)

/-- The members of an object, of those with the same key the last. -/
def lastMembers (members : List (String × Template)) : List (String × Template) :=
  members.foldl (fun kept m => kept.filter (·.1 != m.1) ++ [m]) []

/-- A stored template can be used if it stands under its own key, if that key is no builtin one,
and if templates of the purpose may use its tokens. -/
def isUsable (purpose : Purpose) (key : String) (t : Template) : Bool :=
  key == t.key && !isBuiltinKey purpose key && t.isValidFor purpose

/-- The usable templates of an object of templates. -/
def ofJson? (purpose : Purpose) : Json → Option Shelf
  | .object members => do
    let members ← members.mapM fun (key, v) => do return (key, ← Template.ofJson? v)
    let usable := (lastMembers members).filter fun (key, t) => isUsable purpose key t
    return usable.foldl (fun shelf (_, t) => insert { t with isBuiltin := false } shelf) []
  | _ => none

end Shelf

/-- The templates of the user, and the file that keeps them. -/
structure Collection where
  path : Path
  image : Shelf
  destination : Shelf

namespace Collection

/-- The user's templates of a purpose. -/
def shelf (c : Collection) : Purpose → Shelf
  | .image => c.image
  | .destination => c.destination

/-- The collection with another shelf for a purpose. -/
def withShelf (c : Collection) (purpose : Purpose) (shelf : Shelf) : Collection :=
  match purpose with
  | .image => { c with image := shelf }
  | .destination => { c with destination := shelf }

/-- The shelves of a written collection. -/
def shelvesOfJson? (v : Json) : Option (Shelf × Shelf) := do
  let r ← Json.Record.ofJson? ["image", "destination"] v
  let image ← r.defaulted "image" (Shelf.ofJson? .image) []
  let destination ← r.defaulted "destination" (Shelf.ofJson? .destination) []
  return (image, destination)

/-- The collection kept in a file; without templates of the user if it cannot be read. -/
def load (path : Path) (t : FileTree) : Collection :=
  match ((t.textOf? path).bind Json.read?).bind shelvesOfJson? with
  | some (image, destination) => { path, image, destination }
  | none => { path, image := [], destination := [] }

/-- The written form of the templates of the user. -/
def toJson (c : Collection) : Json :=
  .object [("image", c.image.toJson), ("destination", c.destination.toJson)]

/-- Write the templates of the user to their file. -/
def write (c : Collection) : FileAction Unit := do
  match c.path.parentComponents? with
  | some outer => FileAction.createFolders (Path.ofComponents outer)
  | none => pure ()
  FileAction.writeFile c.path (Json.writeIndented c.toJson).toUTF8

/-- Write the templates of the user to their file; a failure names the file. -/
def save (c : Collection) (t : FileTree) : Except IntakeError Unit × FileTree :=
  match c.write.runOn t with
  | (.ok (), t) => (.ok (), t)
  | (.error cause, t) => (.error (.templatesSave c.path cause), t)

/-- All templates of a purpose: the builtin ones, then the user's. -/
def list (c : Collection) (purpose : Purpose) : List Template :=
  builtins purpose ++ c.shelf purpose

/-- The template of a purpose with the given key. -/
def get? (c : Collection) (purpose : Purpose) (key : String) : Option Template :=
  ((builtins purpose).find? (·.key == key)).or ((c.shelf purpose).get? key)

/-- The template of a purpose with the given key, which has to be there. -/
def require (c : Collection) (purpose : Purpose) (key : String) : Except IntakeError Template :=
  match c.get? purpose key with
  | some t => .ok t
  | none => .error (.unknownTemplate key)

/-- The template of the user with the given key, which has to be there. -/
def requireOwn (c : Collection) (purpose : Purpose) (key : String) :
    Except IntakeError Template :=
  if isBuiltinKey purpose key then .error (.builtinTemplate key)
  else
    match (c.shelf purpose).get? key with
    | some t => .ok t
    | none => .error (.unknownTemplate key)

/-- Add a template of the user, in place of the one with its key. -/
def add (c : Collection) (purpose : Purpose) (t : Template) : Except IntakeError Collection := do
  if isBuiltinKey purpose t.key then throw (.builtinTemplate t.key)
  t.validate purpose
  return c.withShelf purpose ((c.shelf purpose).insert { t with isBuiltin := false })

/-- Give a template of the user another display name. -/
def rename (c : Collection) (purpose : Purpose) (key name : String) :
    Except IntakeError Collection := do
  let _ ← c.requireOwn purpose key
  return c.withShelf purpose ((c.shelf purpose).change key fun t => { t with name })

/-- Give a template of the user other tokens and another case. -/
def redefine (c : Collection) (purpose : Purpose) (key : String) (tokens : List Token)
    (extension : Case) : Except IntakeError Collection := do
  let t ← c.requireOwn purpose key
  let t := { t with tokens, extension }
  t.validate purpose
  return c.withShelf purpose ((c.shelf purpose).insert t)

/-- Take a template of the user out of the collection. -/
def delete (c : Collection) (purpose : Purpose) (key : String) :
    Except IntakeError (Template × Collection) := do
  let t ← c.requireOwn purpose key
  return (t, c.withShelf purpose ((c.shelf purpose).erase key))

end Collection

end PhotoIntake.Naming
