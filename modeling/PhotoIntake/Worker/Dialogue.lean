/-!
# Dialogues

A task that runs for long publishes events and asks, at moments of its choice, questions that are
answered yes or no: mostly whether it has to stop.  What it publishes and asks is all that its
surroundings see of it, so the same task can run under any schedule of answers.
-/

namespace PhotoIntake

/-- A task with questions of type `Q`, events of type `E` and a result. -/
inductive Dialogue (Q E α : Type) where
  | done (result : α)
  | publish (event : E) (next : Dialogue Q E α)
  | ask (question : Q) (next : Bool → Dialogue Q E α)

namespace Dialogue

variable {Q Q' E E' α β : Type}

/-- Go on with another task from the result. -/
def bind (d : Dialogue Q E α) (f : α → Dialogue Q E β) : Dialogue Q E β :=
  match d with
  | done a => f a
  | publish e next => publish e (next.bind f)
  | ask q next => ask q fun answer => (next answer).bind f

instance : Monad (Dialogue Q E) where
  pure := done
  bind := bind

/-- The task with its questions and events in other words. -/
def translate (question : Q → Q') (event : E → E') : Dialogue Q E α → Dialogue Q' E' α
  | done a => done a
  | publish e next => publish (event e) (next.translate question event)
  | ask q next => ask (question q) fun answer => (next answer).translate question event

/-- Publish a list of events. -/
def publishAll : List E → Dialogue Q E Unit
  | [] => done ()
  | e :: rest => publish e (publishAll rest)

/-- Run a task whose questions are answered in turn: its result and its events. -/
def run (answer : Nat → Bool) : Nat → Dialogue Q E α → α × List E
  | _, done a => (a, [])
  | asked, publish e next =>
    let (a, events) := run answer asked next
    (a, e :: events)
  | asked, ask _ next => run answer (asked + 1) (next (answer asked))

/-- Run a task whose questions are answered from a state that its events change: its result and
its events. -/
def observe {σ : Type} (answer : σ → Q → Bool) (see : σ → E → σ) :
    σ → Dialogue Q E α → α × List E
  | _, done a => (a, [])
  | s, publish e next =>
    let (a, events) := observe answer see (see s e) next
    (a, e :: events)
  | s, ask q next => observe answer see s (next (answer s q))

/-- The schedule that says yes from some question on, or never. -/
def stopAfter (questions : Option Nat) (asked : Nat) : Bool :=
  match questions with
  | some n => n ≤ asked
  | none => false

end Dialogue

end PhotoIntake
