import PhotoIntake.Worker.Loop
import Mathlib.Tactic.Common

/-!
# Courses of a dialogue

The same task runs under a schedule of answers, or against a mailbox.  A `Course` forgets where the
answers come from: it holds the answers, the events and the result of one way through the task.

* `course_run` and `course_perform`: both ways of running a task follow a course.
* `Course.of_bind` and `Course.of_translate` take the course of a composed task apart.
* `Dialogue.result` is what comes of a task whose questions are all answered with no.
-/

namespace PhotoIntake

/-- One way through a task: the answers that it got, the events that it published, its result. -/
inductive Course {Q E α : Type} : Dialogue Q E α → List Bool → List E → α → Prop where
  | done (a : α) : Course (.done a) [] [] a
  | publish {answers : List Bool} {events : List E} {a : α} {next : Dialogue Q E α} (e : E)
      (rest : Course next answers events a) : Course (.publish e next) answers (e :: events) a
  | ask {answers : List Bool} {events : List E} {a : α} {next : Bool → Dialogue Q E α} (q : Q)
      (answer : Bool) (rest : Course (next answer) answers events a) :
      Course (.ask q next) (answer :: answers) events a

namespace Course

variable {Q Q' E E' α β : Type} {answers : List Bool} {events : List E}

/-- A composed task runs its first part to the end, and then its second part. -/
theorem of_bind {d : Dialogue Q E α} {f : α → Dialogue Q E β} {b : β}
    (h : Course (d.bind f) answers events b) :
    ∃ a answers₁ answers₂ events₁ events₂, Course d answers₁ events₁ a ∧
      Course (f a) answers₂ events₂ b ∧ answers = answers₁ ++ answers₂ ∧
      events = events₁ ++ events₂ := by
  induction d generalizing answers events with
  | done a => exact ⟨a, [], answers, [], events, .done a, h, rfl, rfl⟩
  | publish e next ih =>
    cases h with
    | publish _ rest =>
      obtain ⟨a, as₁, as₂, es₁, es₂, h₁, h₂, rfl, rfl⟩ := ih rest
      exact ⟨a, as₁, as₂, e :: es₁, es₂, .publish e h₁, h₂, rfl, rfl⟩
  | ask q next ih =>
    cases h with
    | ask _ answer rest =>
      obtain ⟨a, as₁, as₂, es₁, es₂, h₁, h₂, rfl, rfl⟩ := ih answer rest
      exact ⟨a, answer :: as₁, as₂, es₁, es₂, .ask q answer h₁, h₂, rfl, rfl⟩

/-- A task that publishes one event and ends has one course. -/
theorem of_publish_done {e : E} {a b : α}
    (h : Course (.publish e (.done a) : Dialogue Q E α) answers events b) :
    events = [e] ∧ b = a := by
  cases h with
  | publish _ hdone =>
    cases hdone with
    | done => exact ⟨rfl, rfl⟩

/-- A task in other words takes the same course in these words. -/
theorem of_translate {question : Q → Q'} {event : E → E'} {d : Dialogue Q E α} {a : α}
    {events : List E'} (h : Course (d.translate question event) answers events a) :
    ∃ events', Course d answers events' a ∧ events = events'.map event := by
  induction d generalizing answers events with
  | done a' =>
    cases h with
    | done => exact ⟨[], .done _, rfl⟩
  | publish e next ih =>
    cases h with
    | publish _ rest =>
      obtain ⟨events', h', rfl⟩ := ih rest
      exact ⟨e :: events', .publish e h', rfl⟩
  | ask q next ih =>
    cases h with
    | ask _ answer rest =>
      obtain ⟨events', h', rfl⟩ := ih answer rest
      exact ⟨events', .ask q answer h', rfl⟩

/-- A schedule of answers leads on a course, which gets the answers of the schedule in turn. -/
theorem course_run (answer : Nat → Bool) (asked : Nat) (d : Dialogue Q E α) :
    ∃ n, Course d ((List.range' asked n).map answer) (d.run answer asked).2
      (d.run answer asked).1 := by
  induction d generalizing asked with
  | done a => exact ⟨0, .done a⟩
  | publish e next ih =>
    obtain ⟨n, h⟩ := ih asked
    exact ⟨n, .publish e h⟩
  | ask q next ih =>
    obtain ⟨n, h⟩ := ih (answer asked) (asked + 1)
    exact ⟨n + 1, .ask q (answer asked) h⟩

/-- A mailbox leads on a course as well, with the events that the loop logs. -/
theorem course_perform {C : Type} (d : Handling C E α) (mb : Mailbox C) :
    ∃ answers, Course d answers ((Worker.perform d mb).2.2.filterMap Occurrence.event?)
      (Worker.perform d mb).1 := by
  induction d generalizing mb with
  | done a => exact ⟨[], .done a⟩
  | publish e next ih =>
    obtain ⟨answers, h⟩ := ih mb
    exact ⟨answers, .publish e h⟩
  | ask interrupts next ih =>
    rcases hfound : mb.interruption interrupts with ⟨found, mb'⟩
    obtain ⟨answers, h⟩ := ih found.holds mb'
    refine ⟨found.holds :: answers, ?_⟩
    have hrest : Course (.ask interrupts next) _ _ _ := .ask interrupts found.holds h
    simpa [Worker.perform, hfound, List.filterMap_cons, Occurrence.event?] using hrest

end Course

namespace Dialogue

variable {Q Q' E E' α β : Type}

/-! ## Composed tasks under a schedule -/

/-- A task in other words has the same result, and the same events in these words. -/
theorem run_translate (answer : Nat → Bool) (asked : Nat) (question : Q → Q') (event : E → E')
    (d : Dialogue Q E α) : (d.translate question event).run answer asked =
      ((d.run answer asked).1, (d.run answer asked).2.map event) := by
  induction d generalizing asked with
  | done a => rfl
  | publish e next ih => rw [translate, run, run, ih asked, List.map_cons]
  | ask q next ih => rw [translate, run, run, ih (answer asked) (asked + 1)]

/-- A task that publishes one event more at its end has this event more. -/
theorem run_bind_publish (answer : Nat → Bool) (asked : Nat) (d : Dialogue Q E α) (event : α → E)
    (f : α → β) : (d.bind fun a => .publish (event a) (.done (f a))).run answer asked =
      (f (d.run answer asked).1, (d.run answer asked).2 ++ [event (d.run answer asked).1]) := by
  induction d generalizing asked with
  | done a => rfl
  | publish e next ih => rw [bind, run, run, ih asked, List.cons_append]
  | ask q next ih => rw [bind, run, run, ih (answer asked) (asked + 1)]

/-! ## Tasks that are never stopped -/

/-- What comes of a task that is never stopped. -/
def result (d : Dialogue Q E α) : α :=
  (d.run (fun _ => false) 0).1

/-- With one answer to all questions it does not matter how many were asked before. -/
theorem run_const (b : Bool) (asked asked' : Nat) (d : Dialogue Q E α) :
    d.run (fun _ => b) asked = d.run (fun _ => b) asked' := by
  induction d generalizing asked asked' with
  | done a => rfl
  | publish e next ih => rw [run, run, ih asked asked']
  | ask q next ih => exact ih b (asked + 1) (asked' + 1)

@[simp] theorem result_done (a : α) : (done a : Dialogue Q E α).result = a :=
  rfl

@[simp] theorem result_pure (a : α) : (pure a : Dialogue Q E α).result = a :=
  rfl

@[simp] theorem result_publish (e : E) (next : Dialogue Q E α) :
    (publish e next).result = next.result :=
  rfl

@[simp] theorem result_ask (q : Q) (next : Bool → Dialogue Q E α) :
    (ask q next).result = (next false).result := by
  rw [result, run, run_const false 1 0]
  rfl

@[simp] theorem result_bind (d : Dialogue Q E α) (f : α → Dialogue Q E β) :
    (d >>= f).result = (f d.result).result := by
  induction d with
  | done a => rfl
  | publish e next ih => exact ih
  | ask q next ih =>
    rw [result_ask, ← ih false]
    exact result_ask q fun answer => (next answer).bind f

@[simp] theorem result_translate (question : Q → Q') (event : E → E') (d : Dialogue Q E α) :
    (d.translate question event).result = d.result := by
  induction d with
  | done a => rfl
  | publish e next ih => exact ih
  | ask q next ih =>
    rw [result_ask, ← ih false]
    exact result_ask (question q) fun answer => (next answer).translate question event

end Dialogue

end PhotoIntake
