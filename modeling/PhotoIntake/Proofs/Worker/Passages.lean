import PhotoIntake.Proofs.Worker.Course

/-!
# Passages of a command loop

The loop handles one command after the other.  Each of them is a `Passage`: the command, the state
before and after it, and what happened in between.  What the loop does is what its passages do, one
after the other, and the finish of the worker if it has ended.

* `Passing`: passages that follow each other, each of them the handling of its command.
* `loop_passes`: the loop has passed through its `passages`; its state and its log come from them.
* `course_of_perform`: a passage is a course of the handling of its command.
-/

namespace PhotoIntake

/-- The handling of one command in the loop. -/
structure Passage (S C E : Type) where
  command : C
  before : S
  after : S
  log : List (Occurrence C E)

/-- The events that were published in a passage. -/
def Passage.events {S C E : Type} (p : Passage S C E) : List E :=
  p.log.filterMap Occurrence.event?

namespace Worker

variable {S C E : Type} {w : Worker S C E}

/-- The commands that the loop handles from a state on. -/
def passages (w : Worker S C E) (s : S) (mb : Mailbox C) : List (Passage S C E) :=
  match _h : mb.next with
  | (.request (.run c), mb') =>
    match _hp : perform (w.handle c s) mb' with
    | (s', mb'', log) => ⟨c, s, s', log⟩ :: w.passages s' mb''
  | _ => []
termination_by mb.size
decreasing_by
  have hnext := Mailbox.size_next_lt mb mb' c _h
  have hperform := size_perform_le (w.handle c s) mb'
  rw [_hp] at hperform
  exact Nat.lt_of_le_of_lt hperform hnext

/-- Passages that follow each other from a state on. -/
inductive Passing (w : Worker S C E) : S → List (Passage S C E) → Prop where
  | nil (s : S) : Passing w s []
  | cons {c : C} {s s' : S} {mb mb' : Mailbox C} {log : List (Occurrence C E)}
      {rest : List (Passage S C E)} (hperform : perform (w.handle c s) mb = (s', mb', log))
      (hrest : Passing w s' rest) : Passing w s (⟨c, s, s', log⟩ :: rest)

/-- The state after some passages. -/
def stateAfter (s : S) : List (Passage S C E) → S
  | [] => s
  | p :: rest => stateAfter p.after rest

/-- A passage follows a course of the handling of its command, with the events of the passage. -/
theorem course_of_perform {c : C} {s s' : S} {mb mb' : Mailbox C} {log : List (Occurrence C E)}
    (h : perform (w.handle c s) mb = (s', mb', log)) :
    ∃ answers, Course (w.handle c s) answers (log.filterMap Occurrence.event?) s' := by
  have hcourse := Course.course_perform (w.handle c s) mb
  rwa [h] at hcourse

/-- A command that is there is handled, and the loop goes on from there. -/
theorem loop_run {s : S} {mb mb' : Mailbox C} {c : C} (h : mb.next = (.request (.run c), mb')) :
    let handled := perform (w.handle c s) mb'
    let rest := w.loop handled.1 handled.2.1
    w.loop s mb = { rest with log := .handling c :: handled.2.2 ++ rest.log } ∧
      w.passages s mb = ⟨c, s, handled.1, handled.2.2⟩ :: w.passages handled.1 handled.2.1 := by
  intro handled rest
  constructor
  · rw [loop]
    split
    · next c' mb'' heq =>
      rw [h] at heq
      obtain ⟨rfl, rfl⟩ : c = c' ∧ mb' = mb'' := by simpa using heq
      rfl
    all_goals next heq => simp [h] at heq
  · rw [passages]
    split
    · next c' mb'' heq =>
      rw [h] at heq
      obtain ⟨rfl, rfl⟩ : c = c' ∧ mb' = mb'' := by simpa using heq
      rfl
    · next hne => exact absurd h (hne c mb')

/-- Without a command the loop ends or waits. -/
theorem loop_rest {s : S} {mb : Mailbox C} (h : ∀ c mb', mb.next ≠ (.request (.run c), mb')) :
    w.passages s mb = [] ∧ (w.loop s mb = ⟨w.finish s, [.finished], true⟩ ∨
      w.loop s mb = ⟨s, [], false⟩) := by
  constructor
  · rw [passages]
    split
    · next c mb' heq => exact absurd heq (h c mb')
    · rfl
  · rw [loop]
    split
    · next c mb' heq => exact absurd heq (h c mb')
    · exact Or.inl rfl
    · exact Or.inl rfl
    · exact Or.inr rfl

/-- The loop passes through its passages.  Its events are theirs, and if it has ended its state is
the last one, finished. -/
theorem loop_passes (w : Worker S C E) (s : S) (mb : Mailbox C) :
    Passing w s (w.passages s mb) ∧
      (w.loop s mb).events = (w.passages s mb).flatMap Passage.events ∧
      (w.loop s mb).state = if (w.loop s mb).ended then w.finish (stateAfter s (w.passages s mb))
        else stateAfter s (w.passages s mb) := by
  by_cases hnext : ∃ c mb', mb.next = (.request (.run c), mb')
  · obtain ⟨c, mb', hnext⟩ := hnext
    obtain ⟨hloop, hpassages⟩ := loop_run (w := w) (s := s) hnext
    have hsize : (perform (w.handle c s) mb').2.1.size < mb.size :=
      Nat.lt_of_le_of_lt (size_perform_le _ _) (Mailbox.size_next_lt mb mb' c hnext)
    obtain ⟨hpassing, hevents, hstate⟩ :=
      loop_passes w (perform (w.handle c s) mb').1 (perform (w.handle c s) mb').2.1
    rw [hloop, hpassages]
    refine ⟨.cons rfl hpassing, ?_, hstate⟩
    rw [List.flatMap_cons, ← hevents, Rest.events, List.cons_append, List.filterMap_cons_none rfl,
      List.filterMap_append]
    rfl
  · obtain ⟨hpassages, hloop⟩ := loop_rest (w := w) (s := s) fun c mb' h => hnext ⟨c, mb', h⟩
    rw [hpassages]
    refine ⟨.nil s, ?_⟩
    rcases hloop with hloop | hloop
    all_goals
      rw [hloop]
      exact ⟨rfl, rfl⟩
termination_by mb.size

end Worker

end PhotoIntake
