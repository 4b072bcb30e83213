import PhotoIntake.Text.Blank
import PhotoIntake.Text.Lines
import PhotoIntake.Worker.Message

/-!
# Channels over streams

One end of a channel writes its messages line by line to a stream and reads those of the other end
from another one.  A line that is no message is skipped.  A stream that cannot be decoded as text
ends at the line where that happens.  An outlet that has failed to deliver once is closed.
-/

namespace PhotoIntake.Channel

variable {M : Type} [Message M]

/-- The messages among the lines of a stream, up to the first line that is no text. -/
def receiveLines : List (List UInt8) → List M
  | [] => []
  | bytes :: rest =>
    match Text.ofBytes? bytes with
    | none => []
    | some line =>
      match Message.ofLine? line with
      | some m => m :: receiveLines rest
      | none => receiveLines rest

/-- The messages that a stream carries. -/
def receive (stream : List UInt8) : List M :=
  receiveLines (Text.lines stream)

/-- The sending half of a channel: what was written, how many messages the stream takes from now
on, and whether a message was lost. -/
structure Outlet where
  written : String
  capacity : Nat
  isClosed : Bool

namespace Outlet

/-- An outlet to a stream that takes a number of messages. -/
def ofCapacity (capacity : Nat) : Outlet :=
  ⟨"", capacity, false⟩

/-- Send a message; the answer says whether it was delivered. -/
def send (o : Outlet) (m : M) : Bool × Outlet :=
  if o.isClosed then (false, o)
  else
    match o.capacity with
    | 0 => (false, { o with isClosed := true })
    | capacity + 1 => (true, { o with written := o.written ++ Message.line m ++ "\n", capacity })

end Outlet

end PhotoIntake.Channel
