import PhotoIntake.Proofs.Calendar.Dates
import PhotoIntake.Sequence.Basic
import Mathlib.Tactic.Common

/-!
# Counting images

The counters are read from their file at most once, and the count of the day starts again when the
day has changed.  This module says what the operations on sequences come to, so that no later proof
unfolds them.

* `snapshot_eq` and `increment_eq`: each operation from the durable counters in force, `durableIn`.
* `snapshot_again` and `snapshot_increment`: on one day, looking at the counters changes nothing,
  and one image more is one more on each of them.
-/

namespace PhotoIntake

open Calendar (Date)

/-! ## The count of a day -/

namespace Sequence.Daily

/-- The count of a day stays as it is, or it starts again on a later day. -/
theorem on_cases (d : Daily) (today : Date) :
    d.on today = d ∨ d.date < today ∧ d.on today = ⟨today, 0⟩ := by
  unfold on
  by_cases hlater : d.date < today
  · exact Or.inr ⟨hlater, if_pos hlater⟩
  · exact Or.inl (if_neg hlater)

/-- The count as it stands on a day is not of an earlier one. -/
theorem not_lt_on (d : Daily) (today : Date) : ¬ (d.on today).date < today := by
  unfold on
  by_cases hlater : d.date < today
  · rw [if_pos hlater]
    exact Date.lt_irrefl today
  · rwa [if_neg hlater]

/-- Asked twice on one day, the count is the same. -/
@[simp] theorem on_on (d : Daily) (today : Date) : (d.on today).on today = d.on today :=
  if_neg (d.not_lt_on today)

/-- One image more on a day is one more of its count. -/
@[simp] theorem on_increment (d : Daily) (today : Date) :
    (d.increment today).on today = { d.on today with count := (d.on today).count + 1 } :=
  if_neg (d.not_lt_on today)

end Sequence.Daily

/-! ## The counters of a run -/

theorem Counters.advance_advance (c : Counters) (i j : Nat) :
    (c.advance i).advance j = c.advance (i + j) := by
  simp [advance, Nat.add_assoc]

namespace Sequences

open Sequence

variable {s : Sequences} {t t' : FileTree} {today : Date}

/-- The durable counters in force: those in memory, else those in the file, else the first ones. -/
def durableIn (s : Sequences) (t : FileTree) (today : Date) : Durable :=
  s.durable.getD ((Durable.read? s.path t).getD (.first today))

@[simp] theorem durableIn_of_some {d : Durable} (h : s.durable = some d) :
    s.durableIn t today = d := by
  rw [durableIn, h, Option.getD_some]

theorem durableIn_of_none (h : s.durable = none) :
    s.durableIn t today = (Durable.read? s.path t).getD (.first today) := by
  rw [durableIn, h, Option.getD_none]

theorem loaded_eq (s : Sequences) (t : FileTree) (today : Date) :
    s.loaded t today = (s.durableIn t today,
      { s with
        durable := some (s.durableIn t today)
        isDirty := s.durable.isSome && s.isDirty }) := by
  obtain ⟨path, durable, sessionNumber, isDirty⟩ := s
  cases durable <;> simp [loaded, durableIn]

/-- Looking at the count of the day brings it up to date and changes no other. -/
theorem downloadsToday_eq (s : Sequences) (t : FileTree) (today : Date) :
    let d := s.durableIn t today
    s.downloadsToday t today = ((d.daily.on today).count,
      { s with
        durable := some { d with daily := d.daily.on today }
        isDirty := s.durable.isSome && s.isDirty || d.daily.on today != d.daily }) := by
  intro d
  unfold downloadsToday
  simp only [loaded_eq]
  rfl

/-- Looking at all counters does the same. -/
theorem snapshot_eq (s : Sequences) (t : FileTree) (today : Date) :
    let d := s.durableIn t today
    s.snapshot t today = (⟨(d.daily.on today).count, d.storedNumber, s.sessionNumber⟩,
      { s with
        durable := some { d with daily := d.daily.on today }
        isDirty := s.durable.isSome && s.isDirty || d.daily.on today != d.daily }) := by
  intro d
  unfold snapshot storedNumber
  simp only [downloadsToday_eq, loaded_eq, Option.isSome_some, Bool.true_and]
  rfl

/-- One image more is one more on each counter, and a change to be written. -/
theorem increment_eq (s : Sequences) (t : FileTree) (today : Date) :
    let d := s.durableIn t today
    s.increment t today =
      { s with
        durable := some ⟨d.daily.increment today, d.storedNumber + 1⟩
        sessionNumber := s.sessionNumber + 1
        isDirty := true } := by
  intro d
  unfold increment
  simp only [loaded_eq]
  rfl

@[simp] theorem path_snapshot (s : Sequences) (t : FileTree) (today : Date) :
    (s.snapshot t today).2.path = s.path := by
  rw [snapshot_eq]

@[simp] theorem path_increment (s : Sequences) (t : FileTree) (today : Date) :
    (s.increment t today).path = s.path := by
  rw [increment_eq]

/-! ## On one day -/

/-- The counters show the same when they are looked at again. -/
theorem snapshot_again (s : Sequences) (t t' : FileTree) (today : Date) :
    ((s.snapshot t today).2.snapshot t' today).1 = (s.snapshot t today).1 := by
  rw [snapshot_eq s, snapshot_eq]
  simp [durableIn]

/-- Each counter shows one more when an image was counted. -/
theorem snapshot_increment (s : Sequences) (t t' t'' : FileTree) (today : Date) :
    (((s.snapshot t today).2.increment t' today).snapshot t'' today).1 =
      (s.snapshot t today).1.advance 1 := by
  rw [snapshot_eq s, increment_eq, snapshot_eq]
  simp [durableIn, Counters.advance]

end Sequences

end PhotoIntake
