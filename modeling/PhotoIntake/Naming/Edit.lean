import PhotoIntake.Naming.Collection

/-!
# Edits of a collection

What a user may do to the templates, as values: one edit after another can be made on a collection
in memory, or each on the file that keeps it.
-/

namespace PhotoIntake.Naming

/-- A change of the user's templates of a purpose. -/
inductive Edit where
  | add (purpose : Purpose) (template : Template)
  | redefine (purpose : Purpose) (key : String) (tokens : List Token) (extension : Case)
  | rename (purpose : Purpose) (key name : String)
  | delete (purpose : Purpose) (key : String)
  deriving DecidableEq

namespace Edit

/-- The collection after an edit. -/
def apply (c : Collection) : Edit → Except IntakeError Collection
  | add purpose template => c.add purpose template
  | redefine purpose key tokens extension => c.redefine purpose key tokens extension
  | rename purpose key name => c.rename purpose key name
  | delete purpose key => (c.delete purpose key).map (·.2)

/-- Make an edit on the file that keeps a collection.  A refused edit leaves the file alone. -/
def applyToFile (edit : Edit) (path : Path) (t : FileTree) : Except IntakeError Unit × FileTree :=
  match edit.apply (Collection.load path t) with
  | .ok c => c.save t
  | .error e => (.error e, t)

end Edit

end PhotoIntake.Naming
