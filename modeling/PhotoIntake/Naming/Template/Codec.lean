import PhotoIntake.Json.Record
import PhotoIntake.Json.Settled
import PhotoIntake.Naming.Template

/-!
# Templates in JSON

A field is written as a marked object with its title, free text as a text.  Titles and case names
that are not known are read as free text and as the standard case, so that templates of a later
version can be read.
-/

namespace PhotoIntake.Naming

namespace Token

/-- The written form of a token. -/
def toJson : Token → Json
  | text content => .text content
  | field f => .object [("__token__", .bool true), ("name", .text f.title)]

/-- The token of a marked object with a title, or of a text. -/
def ofJson? : Json → Option Token
  | .text content => some (.text content)
  | .object members => do
    let _ ← (Json.object members).settled?
    let r ← Json.Record.ofMembers? ["__token__", "name"] members
    let _ ← r.required "__token__" Json.bool?
    let title ← r.required "name" Json.text?
    return ofTitle title
  | _ => none

end Token

namespace Case

/-- The written form of a case policy. -/
def toJson (case : Case) : Json :=
  .object [("__case__", .bool true), ("name", .text case.title)]

/-- The policy of a marked record with a name; the standard one if the name is not known. -/
def ofJson? (v : Json) : Option Case := do
  let r ← Json.Record.ofJson? ["__case__", "name"] v
  let _ ← r.required "__case__" Json.bool?
  let title ← r.required "name" Json.text?
  return (ofTitle? title).getD standard

end Case

namespace Template

/-- The written form of a template. -/
def toJson (t : Template) : Json :=
  .object [
    ("key", .text t.key),
    ("name", .text t.name),
    ("template", .array (t.tokens.map Token.toJson)),
    ("extension", t.extension.toJson),
    ("isBuiltin", .bool t.isBuiltin)]

/-- The template of a record; tokens, case and the builtin flag may be left out. -/
def ofJson? (v : Json) : Option Template := do
  let r ← Json.Record.ofJson? ["key", "name", "template", "extension", "isBuiltin"] v
  let key ← r.required "key" Json.text?
  let name ← r.required "name" Json.text?
  let tokens ← r.defaulted "template" (Json.listOf? Token.ofJson?) []
  let extension ← r.defaulted "extension" Case.ofJson? .standard
  let isBuiltin ← r.defaulted "isBuiltin" Json.bool? false
  return { key, name, tokens, extension, isBuiltin }

end Template

end PhotoIntake.Naming
