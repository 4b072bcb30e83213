import PhotoIntake.Proofs.Sequence.Counting
import PhotoIntake.Proofs.Sequence.RoundTrip

/-!
# Saving the counters

Between two saves the file lags behind the counters in memory.  Nothing is lost as long as every
change is marked: then a clean state agrees with the file, and a dirty one has counters to write.

* `nextStored`: the stored number in force, in memory or in the file.
* `Backed` is the invariant of all operations.
* `Backed.save`: a save that succeeds brings the file up to date.
-/

namespace PhotoIntake

open Calendar (Date)

namespace Sequence

/-- The stored number in a file; without one that can be read it is the first. -/
def Durable.storedIn (path : Path) (t : FileTree) : Nat :=
  ((Durable.read? path t).map (·.storedNumber)).getD 1

/-- A count that is asked for on a day belongs to the year of that day or a later one. -/
theorem Daily.year_le_on (d : Daily) (today : Date) : today.year ≤ (d.on today).date.year := by
  unfold on
  by_cases hlater : d.date < today
  · simp [hlater]
  · rw [if_neg hlater]
    have hbefore : ¬ d.date.before today = true := hlater
    simp only [Date.before, Bool.or_eq_true, decide_eq_true_eq, not_or] at hbefore
    omega

namespace Durable

/-- The counters as they stand on a day. -/
def on (d : Durable) (today : Date) : Durable :=
  { d with daily := d.daily.on today }

theorem on_inWords {d : Durable} (h : d.InWords) (today : Date) : (d.on today).InWords := by
  refine ⟨?_, h.2⟩
  show (d.daily.on today).count < _
  rcases d.daily.on_cases today with hsame | ⟨-, hon⟩
  · rw [hsame]
    exact h.1
  · rw [hon]
    show 0 < Decimal.wordBound 32
    decide

/-- The counters that are read from the file on a day. -/
def inFile (path : Path) (t : FileTree) (today : Date) : Durable :=
  (read? path t).getD (.first today)

theorem inWords_inFile (path : Path) (t : FileTree) (today : Date) :
    (inFile path t today).InWords := by
  unfold inFile
  cases hread : read? path t with
  | some d => exact inWords_of_read? hread
  | none =>
    show 0 < Decimal.wordBound 32 ∧ 1 < Decimal.wordBound 32
    decide

end Durable

end Sequence

namespace Sequences

open Sequence

variable {s : Sequences} {t t' : FileTree} {today : Date} {stored : Nat}

/-- The stored number of the next image: the one in memory, else the one in the file. -/
def nextStored (s : Sequences) (t : FileTree) : Nat :=
  match s.durable with
  | some d => d.storedNumber
  | none => Durable.storedIn s.path t

@[simp] theorem storedNumber_durableIn (s : Sequences) (t : FileTree) (today : Date) :
    (s.durableIn t today).storedNumber = s.nextStored t := by
  cases hdurable : s.durable with
  | some d => rw [durableIn_of_some hdurable, nextStored, hdurable]
  | none =>
    rw [durableIn_of_none hdurable, nextStored, hdurable]
    simp only [Durable.storedIn]
    cases Durable.read? s.path t <;> rfl

@[simp] theorem storedNumber_snapshot (s : Sequences) (t : FileTree) (today : Date) :
    (s.snapshot t today).1.storedNumber = s.nextStored t := by
  rw [snapshot_eq]
  exact storedNumber_durableIn s t today

@[simp] theorem nextStored_snapshot (s : Sequences) (t t' : FileTree) (today : Date) :
    (s.snapshot t today).2.nextStored t' = s.nextStored t := by
  rw [snapshot_eq]
  exact storedNumber_durableIn s t today

@[simp] theorem nextStored_increment (s : Sequences) (t t' : FileTree) (today : Date) :
    (s.increment t today).nextStored t' = s.nextStored t + 1 := by
  rw [increment_eq]
  exact congrArg (· + 1) (storedNumber_durableIn s t today)

@[simp] theorem sessionNumber_snapshot (s : Sequences) (t : FileTree) (today : Date) :
    (s.snapshot t today).1.sessionNumber = s.sessionNumber ∧
      (s.snapshot t today).2.sessionNumber = s.sessionNumber := by
  rw [snapshot_eq]
  exact ⟨rfl, rfl⟩

@[simp] theorem sessionNumber_increment (s : Sequences) (t : FileTree) (today : Date) :
    (s.increment t today).sessionNumber = s.sessionNumber + 1 := by
  rw [increment_eq]

/-! ## Saving -/

/-- Counters that are not marked are not written. -/
theorem save_of_clean (hclean : s.isDirty = false) (t : FileTree) : s.save t = (.ok (), s, t) := by
  unfold save
  split
  · next hdirty => simp [hclean] at hdirty
  · rfl

theorem save_of_write_error {d : Durable} {cause : FileError} {t t' : FileTree}
    (hdurable : s.durable = some d) (hdirty : s.isDirty = true)
    (hwrite : (d.write s.path).runOn t = (.error cause, t')) :
    s.save t = (.error (.sequencesSave s.path cause), s, t') := by
  simp [save, hdurable, hdirty, hwrite]

/-- Marked counters are written, and the mark goes if that succeeds. -/
theorem save_of_dirty {d : Durable} (hdurable : s.durable = some d) (hdirty : s.isDirty = true)
    (t : FileTree) :
    (∃ t', (d.write s.path).runOn t = (.ok (), t') ∧
        s.save t = (.ok (), { s with isDirty := false }, t')) ∨
      ∃ cause t', (d.write s.path).runOn t = (.error cause, t') ∧
        s.save t = (.error (.sequencesSave s.path cause), s, t') := by
  rcases hwrite : (d.write s.path).runOn t with ⟨cause | _, t'⟩
  · exact Or.inr ⟨cause, t', rfl, save_of_write_error hdurable hdirty hwrite⟩
  · exact Or.inl ⟨t', rfl, by simp [save, hdurable, hdirty, hwrite]⟩

/-- Saving changes no counter, whatever comes of it. -/
theorem counters_save (s : Sequences) (t : FileTree) :
    (s.save t).2.1.durable = s.durable ∧ (s.save t).2.1.sessionNumber = s.sessionNumber := by
  cases hdirty : s.isDirty with
  | false => simp [save_of_clean hdirty]
  | true =>
    cases hdurable : s.durable with
    | none => simp [save, hdurable]
    | some d =>
      rcases save_of_dirty hdurable hdirty t with ⟨t', -, hsave⟩ | ⟨cause, t', -, hsave⟩ <;>
        simp [hsave, hdurable]

/-! ## What is not in the file is marked -/

/-- Clean counters agree with the stored number of the file; dirty ones are there to be written. -/
structure Backed (s : Sequences) (t : FileTree) (stored : Nat) : Prop where
  clean : s.isDirty = false → s.nextStored t = stored
  dirty : s.isDirty = true → ∃ d, s.durable = some d ∧ 0 ≤ d.daily.date.year

/-- Counters that were not asked for yet are those of the file. -/
theorem backed_ofFile (path : Path) (t : FileTree) :
    (Sequences.ofFile path).Backed t (Durable.storedIn path t) :=
  ⟨fun _ => rfl, fun h => absurd h Bool.false_ne_true⟩

namespace Backed

/-- A new day is a change of the counters, and it is marked as one. -/
theorem snapshot (h : s.Backed t stored) (htoday : 0 ≤ today.year) (t' : FileTree) :
    (s.snapshot t today).2.Backed t' stored := by
  have hdirty (hs : s.isDirty = true) : (s.snapshot t today).2.isDirty = true := by
    obtain ⟨d, hdurable, -⟩ := h.dirty hs
    rw [snapshot_eq]
    simp [hdurable, hs]
  refine ⟨fun hclean => ?_, fun _ => ?_⟩
  · rw [nextStored_snapshot]
    refine h.clean (Bool.eq_false_iff.2 fun hs => ?_)
    rw [hdirty hs] at hclean
    simp at hclean
  · rw [snapshot_eq]
    exact ⟨_, rfl, Int.le_trans htoday (Daily.year_le_on _ today)⟩

/-- Counting an image is a change of the counters, and it is marked as one. -/
theorem increment (s : Sequences) (t t' : FileTree) (htoday : 0 ≤ today.year) (stored : Nat) :
    (s.increment t today).Backed t' stored := by
  rw [increment_eq]
  exact ⟨fun h => absurd h (by simp),
    fun _ => ⟨_, rfl, Int.le_trans htoday (Daily.year_le_on _ today)⟩⟩

/-- A save that succeeds brings the file up to date, and changes no counter. -/
theorem save (h : s.Backed t (Durable.storedIn s.path t))
    (hwords : ∀ d ∈ s.durable, d.InWords) (hsaved : (s.save t).1 = .ok ()) :
    let saved := (s.save t).2.1
    let files := (s.save t).2.2
    saved.path = s.path ∧ saved.sessionNumber = s.sessionNumber ∧
      saved.nextStored files = s.nextStored t ∧
      Durable.storedIn s.path files = s.nextStored t ∧
      saved.Backed files (Durable.storedIn s.path files) := by
  cases hs : s.isDirty with
  | false =>
    rw [save_of_clean hs]
    exact ⟨rfl, rfl, rfl, (h.clean hs).symm, h⟩
  | true =>
    obtain ⟨d, hdurable, hyear⟩ := h.dirty hs
    have hfits : d.Fits := ⟨hyear, hwords d hdurable⟩
    rcases save_of_dirty hdurable hs t with ⟨t', hwrite, hresult⟩ | ⟨cause, t', -, hresult⟩
    · have hstored : Durable.storedIn s.path t' = s.nextStored t := by
        rw [Durable.storedIn, Durable.read?_write hfits hwrite, nextStored, hdurable]
        rfl
      have hnext : Sequences.nextStored { s with isDirty := false } t' = s.nextStored t := by
        rw [nextStored, nextStored, hdurable]
      rw [hresult]
      exact ⟨rfl, rfl, hnext, hstored, fun _ => hnext.trans hstored.symm, fun h => by simp at h⟩
    · simp [hresult] at hsaved

end Backed

end Sequences

end PhotoIntake
