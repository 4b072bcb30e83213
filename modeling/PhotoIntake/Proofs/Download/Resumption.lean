import PhotoIntake.Proofs.Download.Numbering
import PhotoIntake.Proofs.Download.WorkingSet

/-!
# Downloads that are taken up again

A download that was stopped leaves a mover behind whose candidates are the images that are left.  On
one day and at one moment it does not matter when they are attempted, so a second download goes on
where the first one stopped.

* `Job.transferEach_append`: attempts in turn are attempts at the first images, then at others.
* `Job.transferEach_shift` and `Job.transferEach_written`: with the clock standing still, attempts do
  not depend on their index, nor on what was written before.
* `candidates_jobAfter`: if all attempts so far have succeeded, the other candidates are left.
* `download_resumes`: stopped and taken up again, a download leaves what it leaves in one go.
-/

namespace PhotoIntake.Mover

open Calendar (Date DateTime)

variable {m : Mover} {plan : Plan} {files : FileTree} {clock : Clock} {now : DateTime}
  {today : Date}

namespace Job

/-! ## Attempts in two parts -/

theorem transferEach_append (index : Nat) (first second : List Image) (job : Job) :
    transferEach plan clock index (first ++ second) job =
      transferEach plan clock (index + first.length) second
        (transferEach plan clock index first job) := by
  induction first generalizing index job with
  | nil => rfl
  | cons image rest ih =>
    rw [List.cons_append, transferEach, ih, transferEach, List.length_cons]
    congr 1
    omega

/-- If the clock stands still, an attempt does not depend on when it is made. -/
theorem transferImage_fixed (reading reading' : Nat) (job : Job) (image : Image) :
    transferImage plan (.fixed now today) reading job image =
      transferImage plan (.fixed now today) reading' job image := by
  have hday (i j : Nat) : (Clock.fixed now today).day i = (Clock.fixed now today).day j := rfl
  unfold transferImage
  rw [hday reading reading', hday (reading + 1) (reading' + 1)]

theorem transferEach_shift (index index' : Nat) (images : List Image) (job : Job) :
    transferEach plan (.fixed now today) index images job =
      transferEach plan (.fixed now today) index' images job := by
  induction images generalizing index index' job with
  | nil => rfl
  | cons image rest ih =>
    rw [transferEach, transferEach, transferImage_fixed (2 * index) (2 * index')]
    exact ih (index + 1) (index' + 1) _

/-- The job with other images written before. -/
def withWritten (before : List Downloaded) (job : Job) : Job :=
  { job with written := before ++ job.written }

/-- What was written before has no part in an attempt. -/
theorem transferImage_withWritten (before : List Downloaded) (reading : Nat) (job : Job)
    (image : Image) :
    transferImage plan clock reading (job.withWritten before) image =
      (transferImage plan clock reading job image).withWritten before := by
  unfold transferImage withWritten
  simp only
  split
  · simp only [List.append_assoc]
  · rfl

theorem transferEach_withWritten (before : List Downloaded) (index : Nat) (images : List Image)
    (job : Job) :
    transferEach plan clock index images (job.withWritten before) =
      (transferEach plan clock index images job).withWritten before := by
  induction images generalizing index job with
  | nil => rfl
  | cons image rest ih => rw [transferEach, transferImage_withWritten, ih, transferEach]

end Job

/-! ## What is left after a stop -/

/-- A mover plans the same download after any number of attempts. -/
@[simp] theorem plan?_jobAfter {n : Nat} (hn : n ≤ m.candidates.length) :
    (m.jobAfter plan files clock n).mover.plan? = m.plan? := by
  refine attempts_induction (P := fun n => (m.jobAfter plan files clock n).mover.plan? = m.plan?)
    rfl (fun i image himage ih => ?_) hn
  rcases jobAfter_succ_cases m plan files clock himage with ⟨-, files', hjob⟩ | ⟨-, files', hjob⟩
  all_goals
    rw [hjob]
    exact ih

/-- After attempts that have all succeeded, the other candidates are left, in their order. -/
theorem candidates_jobAfter (hkeys : m.workingSet.KeysApart) {n : Nat}
    (hn : n ≤ m.candidates.length)
    (hsucceed : ∀ i < n, m.attemptSucceeds plan files clock i = true) :
    (m.jobAfter plan files clock n).mover.candidates = m.candidates.drop n := by
  have hapart := nodup_keys_candidates hkeys
  induction n with
  | zero => rfl
  | succ n ih =>
    have himage : m.candidates[n]? = some m.candidates[n] := List.getElem?_eq_getElem (by omega)
    have hleft := ih (by omega) fun i hi => hsucceed i (by omega)
    rcases jobAfter_succ_cases m plan files clock himage with
      ⟨-, files', hjob⟩ | ⟨hfails, -⟩
    · have hdrop : m.candidates.drop n = m.candidates[n] :: m.candidates.drop (n + 1) :=
        List.drop_eq_getElem_cons (by omega)
      have hothers : ∀ i ∈ m.candidates.drop (n + 1), i.key ≠ m.candidates[n].key := by
        have hnodup : ((m.candidates.drop n).map Image.key).Nodup :=
          hapart.sublist ((List.drop_sublist _ _).map Image.key)
        rw [hdrop, List.map_cons, List.nodup_cons] at hnodup
        exact fun i hi heq => hnodup.1 (heq ▸ List.mem_map_of_mem hi)
      rw [hjob, candidates_written]
      show (m.jobAfter plan files clock n).mover.candidates.filter _ = _
      rw [hleft, hdrop, List.filter_cons_of_neg (by simp [Job.downloaded])]
      exact List.filter_eq_self.2 fun i hi => decide_eq_true (hothers i hi)
    · simp [hsucceed n (by omega)] at hfails

/-! ## Two downloads as one -/

/-- A download of what is left goes on as if the first one had not stopped. -/
theorem jobAfter_resumed (hkeys : m.workingSet.KeysApart) {n : Nat} (hn : n ≤ m.candidates.length)
    (hsucceed : ∀ i < n, m.attemptSucceeds plan files (.fixed now today) i = true) :
    let stopped := m.jobAfter plan files (.fixed now today) n
    m.jobAfter plan files (.fixed now today) m.candidates.length =
      (stopped.mover.jobAfter plan stopped.files (.fixed now today)
        stopped.mover.candidates.length).withWritten stopped.written := by
  intro stopped
  have hleft : stopped.mover.candidates = m.candidates.drop n :=
    candidates_jobAfter hkeys hn hsucceed
  have hstart : stopped = Job.withWritten stopped.written ⟨stopped.mover, stopped.files, []⟩ := by
    rw [Job.withWritten, List.append_nil]
  calc m.jobAfter plan files (.fixed now today) m.candidates.length
      = Job.transferEach plan (.fixed now today) 0 (m.candidates.take n ++ m.candidates.drop n)
          ⟨m, files, []⟩ := by rw [jobAfter, List.take_length, List.take_append_drop]
    _ = Job.transferEach plan (.fixed now today) 0 (m.candidates.drop n) stopped := by
        rw [Job.transferEach_append, Job.transferEach_shift _ 0]
        rfl
    _ = (Job.transferEach plan (.fixed now today) 0 (m.candidates.drop n)
          ⟨stopped.mover, stopped.files, []⟩).withWritten stopped.written := by
        rw [← Job.transferEach_withWritten, ← hstart]
    _ = _ := by rw [jobAfter, List.take_length, hleft]

/-- If the first images can all be transferred, a download that is stopped after them and a second
one that runs to its end leave the same mover and the same files as a single one: the same working
set, the same counters with the same mark that they have changed, and so on.  The images that the
two report are those that the single one reports. -/
theorem download_resumes (m : Mover) (plan : Plan) (files : FileTree) (now : DateTime)
    (today : Date) (k : Nat) (hplan : m.plan? = some plan) (hkeys : m.workingSet.KeysApart)
    (hsucceed : ∀ i < k, i < m.candidates.length →
      m.attemptSucceeds plan files (.fixed now today) i = true) :
    let clock := Clock.fixed now today
    let stopped := ((m.download files clock).run (Dialogue.stopAfter (some k)) 0).1
    let resumed := ((stopped.2.1.download stopped.2.2 clock).run (Dialogue.stopAfter none) 0).1
    let whole := ((m.download files clock).run (Dialogue.stopAfter none) 0).1
    resumed.2.2 = whole.2.2 ∧ resumed.2.1.workingSet = whole.2.1.workingSet ∧
      resumed.2.1.sequences = whole.2.1.sequences ∧ resumed.2.1 = whole.2.1 ∧
      stopped.1.images ++ resumed.1.images = whole.1.images := by
  intro clock stopped resumed whole
  let n := min k m.candidates.length
  have hn : n ≤ m.candidates.length := Nat.min_le_right _ _
  have hstopped : stopped = (m.reportAfter plan files clock n,
      (m.jobAfter plan files clock n).mover, (m.jobAfter plan files clock n).files) := by
    have hrun := run_download files clock (Dialogue.stopAfter (some k)) hplan
    rw [attempts_stopAfter] at hrun
    exact congrArg Prod.fst hrun
  have hwhole {m : Mover} (files : FileTree) (hplan : m.plan? = some plan) :
      ((m.download files clock).run (Dialogue.stopAfter none) 0).1 =
        (m.reportAfter plan files clock m.candidates.length,
          (m.jobAfter plan files clock m.candidates.length).mover,
          (m.jobAfter plan files clock m.candidates.length).files) := by
    have hrun := run_download files clock (Dialogue.stopAfter none) hplan
    rw [attempts_stopAfter, Option.getD_none, Nat.min_self] at hrun
    exact congrArg Prod.fst hrun
  have hplan' : stopped.2.1.plan? = some plan := by
    rw [hstopped]
    exact (plan?_jobAfter hn).trans hplan
  have hresumed : resumed = _ := hwhole stopped.2.2 hplan'
  have hattempts (i : Nat) (hi : i < n) : m.attemptSucceeds plan files clock i = true :=
    hsucceed i (by omega) (by omega)
  have hjob := jobAfter_resumed hkeys hn hattempts
  have hmover := congrArg Job.mover hjob
  have hfiles := congrArg Job.files hjob
  have hwritten := congrArg Job.written hjob
  rw [hresumed, hstopped, show whole = _ from hwhole files hplan]
  simp only [images_reportAfter]
  exact ⟨hfiles.symm, congrArg workingSet hmover.symm, congrArg sequences hmover.symm,
    hmover.symm, hwritten.symm⟩

/-- The two images on the card get the same numbers when the download stops between them. -/
theorem download_resumes_sample :
    let stopped := (((sampleMover "x").download sampleFiles sampleClock).run
      (Dialogue.stopAfter (some 1)) 0).1
    let resumed := ((stopped.2.1.download stopped.2.2 sampleClock).run
      (Dialogue.stopAfter none) 0).1
    let whole := (((sampleMover "x").download sampleFiles sampleClock).run
      (Dialogue.stopAfter none) 0).1
    stopped.1.images.map (·.destination) = [⟨"out/x-1"⟩] ∧
      whole.1.images.map (·.destination) = [⟨"out/x-1"⟩, ⟨"out/x-2"⟩] ∧
      resumed.2.2 = whole.2.2 ∧ stopped.1.images ++ resumed.1.images = whole.1.images := by
  intro stopped resumed whole
  have hkeys : (sampleMover "x").workingSet.KeysApart := by
    unfold WorkingSet.KeysApart
    decide
  obtain ⟨hfiles, -, -, -, himages⟩ := download_resumes (sampleMover "x") (samplePlan "x")
    sampleFiles .epoch .epoch 1 rfl hkeys fun i hi _ => by
      obtain rfl : i = 0 := by omega
      decide +kernel
  exact ⟨by decide +kernel, by decide +kernel, hfiles, himages⟩

end PhotoIntake.Mover
