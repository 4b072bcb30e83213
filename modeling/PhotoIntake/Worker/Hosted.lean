import PhotoIntake.Worker.Loop

/-!
# Workers that were started

Who starts a worker sends it requests and gets its events.  Requests that are sent together are
all there before the first of them is handled.  A worker that has ended takes nothing any more.
-/

namespace PhotoIntake

/-- A worker that was started: its state between two commands, and whether it is still there. -/
structure Hosted (S C E : Type) where
  worker : Worker S C E
  state : S
  isAlive : Bool

namespace Hosted

variable {S C E : Type}

/-- Start a worker. -/
def start (worker : Worker S C E) (s : S) : Hosted S C E :=
  ⟨worker, worker.prepare s, true⟩

/-- Let the worker handle what is in a mailbox; the result holds its events. -/
def handleAll (h : Hosted S C E) (mb : Mailbox C) : List E × Hosted S C E :=
  if h.isAlive then
    let rest := h.worker.loop h.state mb
    (rest.events, { h with state := rest.state, isAlive := !rest.ended })
  else ([], h)

/-- Send requests together. -/
def send (h : Hosted S C E) (requests : List (Request C)) : List E × Hosted S C E :=
  h.handleAll ⟨[], requests.map .request, false⟩

/-- Give up the sending end, after some last requests. -/
def close (h : Hosted S C E) (requests : List (Request C)) : List E × Hosted S C E :=
  h.handleAll ⟨[], requests.map .request, true⟩

/-- Tell the worker to end. -/
def stop (h : Hosted S C E) : List E × Hosted S C E :=
  h.send [.stop]

end Hosted

end PhotoIntake
