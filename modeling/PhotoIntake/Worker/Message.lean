import PhotoIntake.Json.Reader
import PhotoIntake.Json.Record
import PhotoIntake.Json.Writer
import PhotoIntake.Worker.Mailbox

/-!
# Messages

What a worker and its user send to each other has a tag, by which it is routed, and a form in
JSON.  On a stream each message is a line of its own.
-/

namespace PhotoIntake

namespace Json

/-- The bound of counts in messages. -/
def countBound : Nat :=
  Decimal.wordBound 64

/-- The count of a value. -/
def count? (v : Json) : Option Nat :=
  v.natBelow? countBound

/-- The written form of a list of texts. -/
def ofTexts (texts : List String) : Json :=
  .array (texts.map .text)

/-- The texts of an array. -/
def texts? : Json → Option (List String) :=
  listOf? text?

end Json

/-- What can be sent: its tag, its written form, and how that is read. -/
class Message (M : Type) where
  tag : M → String
  toJson : M → Json
  ofJson? : Json → Option M

namespace Message

variable {M : Type} [Message M]

/-- The line of a message. -/
def line (m : M) : String :=
  (toJson m).write

/-- The message of a line. -/
def ofLine? (s : String) : Option M :=
  (Json.read? s).bind ofJson?

end Message

namespace Request

variable {C : Type} [Message C]

/-- The tag of the command; a request to stop has its own. -/
def tag : Request C → String
  | stop => "Stop"
  | run c => Message.tag c

/-- The written form of a request. -/
def toJson : Request C → Json
  | stop => .text "Stop"
  | run c => .object [("Run", Message.toJson c)]

/-- The request of a case. -/
def ofJson? (v : Json) : Option (Request C) :=
  if v.bareCase? = some "Stop" then some stop
  else
    match Json.caseContent? v with
    | some ("Run", content) => (Message.ofJson? content).map run
    | _ => none

instance : Message (Request C) where
  tag := tag
  toJson := toJson
  ofJson? := ofJson?

end Request

end PhotoIntake
