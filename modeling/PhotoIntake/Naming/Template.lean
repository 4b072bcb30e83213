import PhotoIntake.Error
import PhotoIntake.Naming.Rendering

/-!
# Naming templates

A template is a list of tokens with a case policy for extensions.  It renders the file name of an
image or the folder that the image goes to.
-/

namespace PhotoIntake.Naming

/-- A template with its key and its display name. -/
structure Template where
  key : String
  name : String
  tokens : List Token
  extension : Case
  isBuiltin : Bool
  deriving DecidableEq

namespace Template

/-- A template of the user, made of tokens given by title. -/
def ofTitles (key name : String) (titles : List String) (extension : Case) : Template :=
  { key := key
    name := name
    tokens := titles.map Token.ofTitle
    extension := extension
    isBuiltin := false }

/-- What the tokens of the template write. -/
def renderTokens (t : Template) (o : Occasion) : String :=
  String.join (t.tokens.map (Token.render o))

/-- What the template writes.  The name of an image ends in the extension of the image, in the
case of the template. -/
def render (t : Template) (o : Occasion) : Purpose → String
  | .image => t.renderTokens o ++ t.extension.apply o.image.extension
  | .destination => t.renderTokens o

/-- Every token of the template has something to show. -/
def hasMeaning (t : Template) (o : Occasion) : Bool :=
  t.tokens.all (Token.hasMeaning o)

/-- The text of the template in an editor. -/
def shown (t : Template) : String :=
  String.join (t.tokens.map Token.shown)

/-- The ranges of the tokens in the editor's text, counted in characters from the given start. -/
def boundariesFrom (start : Nat) : List Token → List (Nat × Nat)
  | [] => []
  | token :: rest =>
    let stop := start + token.shown.length
    (start, stop) :: boundariesFrom stop rest

/-- The ranges of the tokens in the editor's text, counted in characters. -/
def boundaries (t : Template) : List (Nat × Nat) :=
  boundariesFrom 0 t.tokens

/-- Fails with the first token that templates of the purpose may not use. -/
def validate (t : Template) (purpose : Purpose) : Except IntakeError Unit :=
  match t.tokens.find? fun token => !token.isAllowedIn purpose with
  | some token => .error (.invalidTemplate t.name token.name)
  | none => .ok ()

/-- Templates of the purpose may use every token of the template. -/
def isValidFor (t : Template) (purpose : Purpose) : Bool :=
  t.tokens.all (·.isAllowedIn purpose)

end Template

end PhotoIntake.Naming
