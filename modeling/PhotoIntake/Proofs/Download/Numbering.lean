import PhotoIntake.Proofs.Download.Attempts
import PhotoIntake.Proofs.Sequence.Counting

/-!
# The numbers of a download

An image is named before it is transferred and counted after it, so the number that it gets depends
on how many attempts before it have succeeded, and on nothing else.

* `successes`: the attempts that succeed, in their order.
* `Counted` is the invariant of the attempts: the counters have advanced by the successes so far,
  and each image that was written is named at the counters of its place among them.
* `download_numbers`: what a download reports, counts and tells, for every point at which it may be
  stopped.
-/

namespace PhotoIntake.Mover

open Calendar (Date)
open Naming (Occasion)

variable {m : Mover} {plan : Plan} {files : FileTree} {clock : Clock} {today : Date}

/-! ## Which attempts succeed -/

/-- The attempt at an index succeeds. -/
def attemptSucceeds (m : Mover) (plan : Plan) (files : FileTree) (clock : Clock) (i : Nat) : Bool :=
  match m.candidates[i]? with
  | some image =>
    let job := m.jobAfter plan files clock i
    (Transfer.run m.mode image.source (job.target plan clock i image)).succeeds job.files
  | none => false

/-- The indices of the attempts that succeed among the first ones. -/
def successes (m : Mover) (plan : Plan) (files : FileTree) (clock : Clock) (attempts : Nat) :
    List Nat :=
  (List.range attempts).filter (m.attemptSucceeds plan files clock)

theorem successes_succ (m : Mover) (plan : Plan) (files : FileTree) (clock : Clock) (i : Nat) :
    m.successes plan files clock (i + 1) =
      m.successes plan files clock i ++
        if m.attemptSucceeds plan files clock i then [i] else [] := by
  rw [successes, List.range_succ, List.filter_append, List.filter_cons, List.filter_nil]
  rfl

/-- The next attempt succeeds, and its image is counted and reported, or it fails, and the counters
were only looked at. -/
theorem jobAfter_succ_cases (m : Mover) (plan : Plan) (files : FileTree) (clock : Clock) {i : Nat}
    {image : Image} (himage : m.candidates[i]? = some image) :
    let job := m.jobAfter plan files clock i
    (m.attemptSucceeds plan files clock i = true ∧ ∃ files',
        m.jobAfter plan files clock (i + 1) =
          { mover := Mover.written { job.mover with
              sequences := (job.sequencesAt clock i).increment files' (clock.day (2 * i + 1)) }
                (job.downloaded plan clock i image)
            files := files'
            written := job.written ++ [job.downloaded plan clock i image] }) ∨
      (m.attemptSucceeds plan files clock i = false ∧ ∃ files',
        m.jobAfter plan files clock (i + 1) =
          { job with
            mover := { job.mover with sequences := job.sequencesAt clock i }
            files := files' }) := by
  intro job
  have hsucceeds : m.attemptSucceeds plan files clock i =
      (Transfer.run job.mover.mode image.source (job.target plan clock i image)).succeeds
        job.files := by
    rw [attemptSucceeds, himage, mode_jobAfter]
  rcases Job.transferImage_cases plan clock i job image with
    ⟨files', hrun, hjob⟩ | ⟨e, files', hrun, hjob⟩
  all_goals
    rw [← jobAfter_succ m plan files clock himage] at hjob
    rw [FileAction.succeeds, hrun] at hsucceeds
  · exact Or.inl ⟨hsucceeds, files', hjob⟩
  · exact Or.inr ⟨hsucceeds, files', hjob⟩

/-! ## What the attempts count -/

/-- The entry of the report for an image that is named at given counters. -/
def entryAt (m : Mover) (plan : Plan) (files : FileTree) (clock : Clock) (c : Counters) (i : Nat)
    (image : Image) : Downloaded :=
  let o : Occasion := ⟨image, c, clock.now⟩
  let before := (m.jobAfter plan files clock i).files
  { key := image.key
    time := clock.now
    destination := (plan.folder o).join
      ⟨Transfer.freeName before (plan.folder o) (plan.imageTemplate.render o .image)⟩ }

/-- After some attempts the counters have advanced by those that have succeeded, and the images
that were written are theirs, each named at the counters of its place. -/
structure Counted (m : Mover) (plan : Plan) (files : FileTree) (clock : Clock) (today : Date)
    (c : Counters) (i : Nat) : Prop where
  counters : ((m.jobAfter plan files clock i).mover.sequences.snapshot
    (m.jobAfter plan files clock i).files today).1 =
      c.advance (m.successes plan files clock i).length
  length : (m.jobAfter plan files clock i).written.length =
    (m.successes plan files clock i).length
  written : ∀ j p, (m.successes plan files clock i)[j]? = some p →
    ∃ image, m.candidates[p]? = some image ∧ (m.jobAfter plan files clock i).written[j]? =
      some (m.entryAt plan files clock (c.advance j) p image)

theorem counted_zero (m : Mover) (plan : Plan) (files : FileTree) (clock : Clock) (today : Date) :
    Counted m plan files clock today (m.sequences.snapshot files today).1 0 where
  counters := rfl
  length := rfl
  written j p h := by simp [successes] at h

namespace Counted

variable {c : Counters} {i : Nat} {image : Image}

/-- The image that is named next gets the counters after all successes so far. -/
theorem downloaded_eq (h : Counted m plan files clock today c i)
    (hday : ∀ reading, clock.day reading = today) :
    (m.jobAfter plan files clock i).downloaded plan clock i image =
      m.entryAt plan files clock (c.advance (m.successes plan files clock i).length) i image := by
  rw [← h.counters, ← hday (2 * i)]
  rfl

/-- An attempt that succeeds counts its image. -/
theorem succeeded {files' : FileTree} (h : Counted m plan files clock today c i)
    (hday : ∀ reading, clock.day reading = today) (himage : m.candidates[i]? = some image)
    (hsuccesses : m.successes plan files clock (i + 1) = m.successes plan files clock i ++ [i])
    (hjob : m.jobAfter plan files clock (i + 1) =
      { mover := Mover.written { (m.jobAfter plan files clock i).mover with
          sequences := ((m.jobAfter plan files clock i).sequencesAt clock i).increment files'
            (clock.day (2 * i + 1)) }
              ((m.jobAfter plan files clock i).downloaded plan clock i image)
        files := files'
        written := (m.jobAfter plan files clock i).written ++
          [(m.jobAfter plan files clock i).downloaded plan clock i image] }) :
    Counted m plan files clock today c (i + 1) where
  counters := by
    rw [hjob, hsuccesses, List.length_append, List.length_singleton, ← Counters.advance_advance,
      ← h.counters]
    show ((((m.jobAfter plan files clock i).sequencesAt clock i).increment files'
      (clock.day (2 * i + 1))).snapshot files' today).1 = _
    rw [Job.sequencesAt, hday, hday]
    exact Sequences.snapshot_increment _ _ _ _ _
  length := by
    rw [hjob, hsuccesses]
    simp [h.length]
  written j p hp := by
    rw [hjob, h.downloaded_eq hday]
    rw [hsuccesses] at hp
    by_cases hj : j < (m.successes plan files clock i).length
    · rw [List.getElem?_append_left hj] at hp
      rw [List.getElem?_append_left (h.length ▸ hj)]
      exact h.written j p hp
    · have hsome : j < (m.successes plan files clock i ++ [i]).length :=
        (List.getElem?_eq_some_iff.1 hp).1
      obtain rfl : j = (m.successes plan files clock i).length := by
        rw [List.length_append, List.length_singleton] at hsome
        omega
      obtain rfl : i = p := by simpa using hp
      exact ⟨image, himage, by simp [← h.length]⟩

/-- An attempt that fails counts nothing. -/
theorem failed {files' : FileTree} (h : Counted m plan files clock today c i)
    (hday : ∀ reading, clock.day reading = today)
    (hsuccesses : m.successes plan files clock (i + 1) = m.successes plan files clock i)
    (hjob : m.jobAfter plan files clock (i + 1) =
      { m.jobAfter plan files clock i with
        mover := { (m.jobAfter plan files clock i).mover with
          sequences := (m.jobAfter plan files clock i).sequencesAt clock i }
        files := files' }) :
    Counted m plan files clock today c (i + 1) where
  counters := by
    rw [hjob, hsuccesses, ← h.counters]
    show (((m.jobAfter plan files clock i).sequencesAt clock i).snapshot files' today).1 = _
    rw [Job.sequencesAt, hday]
    exact Sequences.snapshot_again _ _ _ _
  length := by
    rw [hjob, hsuccesses]
    exact h.length
  written j p hp := by
    rw [hjob]
    rw [hsuccesses] at hp
    exact h.written j p hp

/-- The next attempt keeps the account. -/
theorem succ (h : Counted m plan files clock today c i)
    (hday : ∀ reading, clock.day reading = today) (himage : m.candidates[i]? = some image) :
    Counted m plan files clock today c (i + 1) := by
  have hsuccesses := successes_succ m plan files clock i
  rcases jobAfter_succ_cases m plan files clock himage with
    ⟨hsucceeds, files', hjob⟩ | ⟨hsucceeds, files', hjob⟩
  · rw [hsucceeds, if_pos rfl] at hsuccesses
    exact h.succeeded hday himage hsuccesses hjob
  · rw [hsucceeds, if_neg Bool.false_ne_true, List.append_nil] at hsuccesses
    exact h.failed hday hsuccesses hjob

end Counted

theorem counted_jobAfter (m : Mover) (plan : Plan) (files : FileTree)
    (hday : ∀ reading, clock.day reading = today) {i : Nat} (hi : i ≤ m.candidates.length) :
    Counted m plan files clock today (m.sequences.snapshot files today).1 i :=
  attempts_induction (counted_zero m plan files clock today)
    (fun _ _ himage h => h.succ hday himage) hi

/-! ## Whole downloads -/

/-- A schedule that says yes from some question on lets that many attempts pass. -/
theorem attempts_stopAfter (stop : Option Nat) (candidates : Nat) :
    attempts (Dialogue.stopAfter stop) candidates = min (stop.getD candidates) candidates := by
  apply attempts_eq (Nat.min_le_right _ _)
  · intro i hi
    cases stop with
    | none => rfl
    | some n =>
      have hlt : i < n := Nat.lt_of_lt_of_le hi (Nat.min_le_left _ _)
      simpa [Dialogue.stopAfter] using hlt
  · intro hlt
    cases stop with
    | none => simp at hlt
    | some n =>
      have hle : n ≤ candidates := by
        simp only [Option.getD_some] at hlt
        omega
      simp [Dialogue.stopAfter, hle]

end PhotoIntake.Mover
