/-!
# Paths

A path is a text whose components are separated by slashes.  The text is kept as it was given;
what a path means is read off its components.
-/

namespace PhotoIntake

/-- A path as it was given. -/
structure Path where
  text : String
  deriving DecidableEq, Hashable

namespace Path

/-- One component of a path. -/
inductive Component where
  | root
  | current
  | parent
  | name (s : String)
  deriving DecidableEq

namespace Component

/-- The text of a component. -/
def text : Component → String
  | root => "/"
  | current => "."
  | parent => ".."
  | name s => s

/-- The name of a component that is one. -/
def name? : Component → Option String
  | name s => some s
  | _ => none

end Component

/-- The texts between the slashes. -/
def pieces (s : String) : List String :=
  (s.toList.splitOn '/').map String.ofList

/-- The component of a piece; empty pieces and single dots are none. -/
def Component.ofPiece? (piece : String) : Option Component :=
  if piece = "" ∨ piece = "." then none
  else if piece = ".." then some .parent
  else some (.name piece)

/-- The path starts at the root. -/
def isAbsolute (p : Path) : Bool :=
  p.text.toList.head? == some '/'

/-- The components of a path.  A single dot counts only at the start. -/
def components (p : Path) : List Component :=
  let body := (pieces p.text).filterMap Component.ofPiece?
  if p.isAbsolute then .root :: body
  else if (pieces p.text).head? = some "." then .current :: body
  else body

/-- The path ends in a slash or in a single dot, so only a folder can be meant. -/
def demandsFolder (p : Path) : Bool :=
  match (pieces p.text).getLast? with
  | some piece => piece == "" || piece == "."
  | none => false

/-- One path below another.  An absolute second path replaces the first. -/
def join (p q : Path) : Path :=
  if q.isAbsolute || p.text.isEmpty then q
  else if p.text.toList.getLast? = some '/' then ⟨p.text ++ q.text⟩
  else ⟨p.text ++ "/" ++ q.text⟩

/-- A path below a folder, down the given names. -/
def descend (p : Path) (names : List String) : Path :=
  names.foldl (fun p s => p.join ⟨s⟩) p

/-- The path of the given components. -/
def ofComponents (cs : List Component) : Path :=
  cs.foldl (fun p c => p.join ⟨c.text⟩) ⟨""⟩

/-- The components of the folder around the path; a path that is empty or the root has none. -/
def parentComponents? (p : Path) : Option (List Component) :=
  match p.components.reverse with
  | [] => none
  | .root :: _ => none
  | _ :: rest => some rest.reverse

/-- The last component, if it is a name. -/
def fileName? (p : Path) : Option String :=
  p.components.getLast?.bind Component.name?

/-- A name cut at its last point, if there is a point after the first character and the name is
not two points. -/
def splitName? (name : String) : Option (String × String) :=
  let back := name.toList.reverse
  let after := back.takeWhile (· != '.')
  match back.dropWhile (· != '.') with
  | [] => none
  | [_] => none
  | _ :: before =>
    if name = ".." then none
    else some (String.ofList before.reverse, String.ofList after.reverse)

/-- The file name without its extension. -/
def stem? (p : Path) : Option String :=
  p.fileName?.map fun name => ((splitName? name).map (·.1)).getD name

/-- The extension of the file name, without its point. -/
def extension? (p : Path) : Option String :=
  p.fileName?.bind fun name => (splitName? name).map (·.2)

/-- The names of the components that are names. -/
def names (p : Path) : List String :=
  p.components.filterMap Component.name?

end Path

end PhotoIntake
