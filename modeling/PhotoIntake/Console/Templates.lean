import PhotoIntake.Console.Desk
import PhotoIntake.Console.Invocation
import PhotoIntake.Naming.Edit

/-!
# Commands on names

The list of fields that names are made of, and the commands that list and change templates.  Every
change is made on the file of the templates.
-/

namespace PhotoIntake.Console

open Naming (Purpose Family Genus Field Template Collection Token Case Edit)

variable {ω : Type}

/-- The lines of a genus with its fields. -/
def genusLines (g : Genus) : List Line :=
  .plain ("  " ++ g.title) :: g.fields.map fun f => .plain ("    " ++ f.title)

/-- The lines of the fields that templates of a purpose may use, by family and genus; all fields
where no purpose is given. -/
def fieldLines (purpose : Option Purpose) : List Line :=
  (Family.all.filter fun f => purpose.all f.isAllowedIn).flatMap fun f =>
    .plain f.title :: (f.genera.filter fun g => purpose.all g.isAllowedIn).flatMap genusLines

/-- The lines of a template. -/
def templateLines (purpose : Purpose) (t : Template) : List Line :=
  let mark := if t.isBuiltin then " (builtin)" else ""
  let policy := match purpose with
    | .image => "  [extension: " ++ t.extension.title ++ "]"
    | .destination => ""
  [.plain ("  " ++ t.key ++ " - " ++ t.name ++ mark), .plain ("      " ++ t.shown ++ policy)]

/-- The title over the templates of a purpose. -/
def listTitle : Purpose → String
  | .image => "Image naming templates:"
  | .destination => "Destination naming templates:"

/-- The lines of a collection; of one purpose where that is given. -/
def collectionLines (c : Collection) (purpose : Option Purpose) : List Line :=
  ([Purpose.image, .destination].filter fun p => purpose.all (· == p)).flatMap fun p =>
    .plain (listTitle p) :: (c.list p).flatMap (templateLines p) ++ [.empty]

namespace TemplateRequest

/-- The case policy of a name. -/
def policy (name : String) : Except CommandError Case :=
  match Case.ofTitle? name with
  | some case => .ok case
  | none => .error (.unknownPolicy name)

/-- The edit that is asked for.  A template without a name is named by its key. -/
def edit : TemplateRequest → Except CommandError Edit
  | add purpose key name case tokens => do
    return .add purpose (Template.ofTitles key (name.getD key) tokens (← policy case))
  | redefine purpose key case tokens => do
    return .redefine purpose key (tokens.map Token.ofTitle) (← policy case)
  | rename purpose key name => return .rename purpose key name
  | delete purpose key => return .delete purpose key

/-- What is said when it is done. -/
def report : TemplateRequest → String
  | add _ key _ _ _ => "Template " ++ key ++ " added"
  | redefine _ key _ _ => "Template " ++ key ++ " redefined"
  | rename _ key name => "Template " ++ key ++ " renamed to " ++ name
  | delete _ key => "Template " ++ key ++ " deleted"

/-- Make the edit that is asked for on the file of the templates. -/
def run (r : TemplateRequest) (file : Path) : CommandAction ω Unit := do
  let edit ← match r.edit with
    | .ok edit => pure edit
    | .error e => throw e
  CommandAction.onFiles (edit.applyToFile file) .intake
  CommandAction.print [.success r.report]

end TemplateRequest

end PhotoIntake.Console
