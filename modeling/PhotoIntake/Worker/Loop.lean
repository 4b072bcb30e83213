import PhotoIntake.Worker.Dialogue
import PhotoIntake.Worker.Mailbox

/-!
# The command loop

A worker handles one command after the other until it is told to stop or its mailbox is closed.
Handling a command is a dialogue: it publishes events, and it asks whether an interrupting command
has arrived.
-/

namespace PhotoIntake

/-- The handling of a command: a question names the commands that would interrupt. -/
abbrev Handling (C E α : Type) := Dialogue (C → Bool) E α

/-- A worker with state `S`. -/
structure Worker (S C E : Type) where
  prepare : S → S
  handle : C → S → Handling C E S
  finish : S → S

/-- What happens in the loop, in order.  A look for an interruption names the commands that would
interrupt, and what it found. -/
inductive Occurrence (C E : Type) where
  | handling (command : C)
  | published (event : E)
  | looked (interrupts : C → Bool) (found : Mailbox.Interruption C)
  | finished

namespace Occurrence

/-- The event of an occurrence that is one. -/
def event? {C E : Type} : Occurrence C E → Option E
  | published e => some e
  | _ => none

/-- The command of an occurrence that begins its handling. -/
def handled? {C E : Type} : Occurrence C E → Option C
  | handling c => some c
  | _ => none

end Occurrence

namespace Worker

variable {S C E α : Type}

/-- Run the handling of a command against a mailbox. -/
def perform : Handling C E α → Mailbox C → α × Mailbox C × List (Occurrence C E)
  | .done a, mb => (a, mb, [])
  | .publish e next, mb =>
    let (a, mb, log) := perform next mb
    (a, mb, .published e :: log)
  | .ask interrupts next, mb =>
    let (found, mb) := mb.interruption interrupts
    let (a, mb, log) := perform (next found.holds) mb
    (a, mb, .looked interrupts found :: log)

/-- Handling a command leaves no more to be done in the mailbox. -/
theorem size_perform_le (d : Handling C E α) (mb : Mailbox C) :
    (perform d mb).2.1.size ≤ mb.size := by
  induction d generalizing mb with
  | done a => exact Nat.le_refl _
  | publish e next ih => exact ih mb
  | ask interrupts next ih =>
    exact Nat.le_trans (ih _ _) (mb.size_interruption_le interrupts)

/-- How the loop came to rest: it has ended, or it waits for a request. -/
structure Rest (S C E : Type) where
  state : S
  log : List (Occurrence C E)
  ended : Bool

/-- The loop from a state on. -/
def loop (w : Worker S C E) (s : S) (mb : Mailbox C) : Rest S C E :=
  match _h : mb.next with
  | (.request (.run c), mb') =>
    match _hp : perform (w.handle c s) mb' with
    | (s', mb'', log) =>
      let rest := loop w s' mb''
      { rest with log := .handling c :: log ++ rest.log }
  | (.request .stop, _) => ⟨w.finish s, [.finished], true⟩
  | (.closed, _) => ⟨w.finish s, [.finished], true⟩
  | (.waiting, _) => ⟨s, [], false⟩
termination_by mb.size
decreasing_by
  have h₁ := Mailbox.size_next_lt mb mb' c _h
  have h₂ := size_perform_le (w.handle c s) mb'
  rw [_hp] at h₂
  exact Nat.lt_of_le_of_lt h₂ h₁

/-- The loop from the start. -/
def run (w : Worker S C E) (s : S) (mb : Mailbox C) : Rest S C E :=
  w.loop (w.prepare s) mb

namespace Rest

/-- The events that were published, in order. -/
def events (r : Rest S C E) : List E :=
  r.log.filterMap Occurrence.event?

/-- The commands that were handled, in order. -/
def handled (r : Rest S C E) : List C :=
  r.log.filterMap Occurrence.handled?

end Rest

end Worker

end PhotoIntake
