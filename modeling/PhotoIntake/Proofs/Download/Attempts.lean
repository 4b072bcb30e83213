import PhotoIntake.Download.Mover
import PhotoIntake.Proofs.Path.Components
import PhotoIntake.Proofs.Worker.Course
import Mathlib.Data.List.TakeWhile

/-!
# The attempts of a download

A download attempts its candidates in turn until it is told to stop.  How far it gets depends on the
answers alone; what happens to the job on the way does not depend on them.

* `Job.transferImage_cases`: an attempt writes its image, or it changes no counter.
* `jobAfter`: the job after a number of attempts, and `jobAfter_succ` the attempt that comes next.
  `attempts_induction` carries what every attempt keeps from the start to any of them.
* `course_download`: every course of a download consists of some attempts, `run_download` says how
  many they are under a schedule of answers.
-/

namespace PhotoIntake.Mover

open Naming (Occasion)

variable {plan : Plan} {clock : Clock}

/-- The folder of an image is the destination and names below it. -/
theorem Plan.components_folder (plan : Plan) (o : Occasion) :
    ∃ names : List String, (∀ s ∈ names, Path.IsName s) ∧
      (plan.folder o).components = plan.destination.components ++ names.map .name := by
  have hnames : ∀ s ∈ (Path.mk (plan.destinationTemplate.render o .destination)).names,
      Path.IsName s := fun _ hs => Path.isName_of_mem_names hs
  exact ⟨_, hnames, Path.components_descend hnames⟩

/-- What a plan is made of. -/
theorem plan?_eq_some {m : Mover} {plan : Plan} (h : m.plan? = some plan) :
    m.destination = some plan.destination ∧ m.imageTemplate = some plan.imageTemplate ∧
      m.destinationTemplate = some plan.destinationTemplate := by
  obtain ⟨destination, hdestination, htemplates⟩ := Option.bind_eq_some_iff.1 h
  obtain ⟨imageTemplate, himage, htemplate⟩ := Option.bind_eq_some_iff.1 htemplates
  obtain ⟨destinationTemplate, hfolder, hend⟩ := Option.bind_eq_some_iff.1 htemplate
  obtain rfl : (⟨destination, imageTemplate, destinationTemplate⟩ : Plan) = plan :=
    Option.some.inj hend
  exact ⟨hdestination, himage, hfolder⟩

namespace Job

/-! ## One attempt -/

/-- What the name of the next image depends on. -/
def occasion (clock : Clock) (index : Nat) (job : Job) (image : Image) : Occasion :=
  ⟨image, (job.mover.sequences.snapshot job.files (clock.day (2 * index))).1, clock.now⟩

/-- Where the next image is to go. -/
def target (plan : Plan) (clock : Clock) (index : Nat) (job : Job) (image : Image) : Path :=
  plan.target job.files (job.occasion clock index image)

/-- The sequences when the next image is named. -/
def sequencesAt (clock : Clock) (index : Nat) (job : Job) : Sequences :=
  (job.mover.sequences.snapshot job.files (clock.day (2 * index))).2

/-- The entry of the report for the next image. -/
def downloaded (plan : Plan) (clock : Clock) (index : Nat) (job : Job) (image : Image) :
    Downloaded :=
  ⟨image.key, clock.now, job.target plan clock index image⟩

@[simp] theorem destination_downloaded (plan : Plan) (clock : Clock) (index : Nat) (job : Job)
    (image : Image) : (job.downloaded plan clock index image).destination =
      job.target plan clock index image := by
  rw [downloaded]

/-- An attempt writes the image, and counts and reports it, or it fails. -/
theorem transferImage_cases (plan : Plan) (clock : Clock) (index : Nat) (job : Job)
    (image : Image) :
    let transfer := Transfer.run job.mover.mode image.source (job.target plan clock index image)
    (∃ files, transfer.runOn job.files = (.ok (), files) ∧
        transferImage plan clock (2 * index) job image =
          { mover := Mover.written { job.mover with
              sequences := (job.sequencesAt clock index).increment files
                (clock.day (2 * index + 1)) } (job.downloaded plan clock index image)
            files := files
            written := job.written ++ [job.downloaded plan clock index image] }) ∨
      ∃ e files, transfer.runOn job.files = (.error e, files) ∧
        transferImage plan clock (2 * index) job image =
          { job with
            mover := { job.mover with sequences := job.sequencesAt clock index }
            files := files } := by
  intro transfer
  rcases hrun : transfer.runOn job.files with ⟨e | u, files⟩
  · refine Or.inr ⟨e, files, rfl, ?_⟩
    unfold transferImage
    simp only [transfer, target, occasion] at hrun
    simp only [hrun]
    rfl
  · refine Or.inl ⟨files, rfl, ?_⟩
    unfold transferImage
    simp only [transfer, target, occasion] at hrun
    simp only [hrun]
    rfl

/-- An attempt leaves the files that its transfer leaves, whether it succeeds or not. -/
theorem files_transferImage (plan : Plan) (clock : Clock) (index : Nat) (job : Job)
    (image : Image) : (transferImage plan clock (2 * index) job image).files =
      (Transfer.run job.mover.mode image.source (job.target plan clock index image)).treeAfter
        job.files := by
  rcases transferImage_cases plan clock index job image with
    ⟨files, hrun, hjob⟩ | ⟨e, files, hrun, hjob⟩
  all_goals rw [hjob, FileAction.treeAfter, hrun]

/-- An attempt reports at most its own image. -/
theorem mem_written_transferImage {index : Nat} {job : Job} {image : Image} {d : Downloaded}
    (h : d ∈ (transferImage plan clock (2 * index) job image).written) :
    d ∈ job.written ∨ d = job.downloaded plan clock index image := by
  rcases transferImage_cases plan clock index job image with
    ⟨files, -, hjob⟩ | ⟨e, files, -, hjob⟩
  all_goals rw [hjob] at h
  · exact (List.mem_append.1 h).imp_right List.mem_singleton.1
  · exact Or.inl h

@[simp] theorem mode_transferImage (plan : Plan) (clock : Clock) (reading : Nat) (job : Job)
    (image : Image) :
    (transferImage plan clock reading job image).mover.mode = job.mover.mode := by
  unfold transferImage
  simp only
  split <;> rfl

/-! ## Attempts in turn -/

/-- The job after the images were attempted in turn, the first one at an index. -/
def transferEach (plan : Plan) (clock : Clock) : Nat → List Image → Job → Job
  | _, [], job => job
  | index, image :: rest, job =>
    transferEach plan clock (index + 1) rest (transferImage plan clock (2 * index) job image)

theorem transferEach_snoc (index : Nat) (images : List Image) (image : Image) (job : Job) :
    transferEach plan clock index (images ++ [image]) job =
      transferImage plan clock (2 * (index + images.length))
        (transferEach plan clock index images job) image := by
  induction images generalizing index job with
  | nil => rfl
  | cons first rest ih =>
    rw [List.cons_append, transferEach, ih, transferEach, List.length_cons]
    congr 2
    omega

/-- Every course attempts the images up to some point, which is the end or a yes. -/
theorem course_transferAll {index : Nat} {images : List Image} {job job' : Job}
    {answers : List Bool} {events : List Progress} {stopped : Bool}
    (h : Course (transferAll plan clock index images job) answers events (stopped, job')) :
    ∃ k, k ≤ images.length ∧ stopped = decide (k < images.length) ∧
      answers = List.replicate k false ++ (if k < images.length then [true] else []) ∧
      events = (List.range' (index + 1) k).map .processed ∧
      job' = transferEach plan clock index (images.take k) job := by
  induction images generalizing index job answers events with
  | nil =>
    cases h with
    | done => exact ⟨0, by simp, by simp, by simp, by simp, rfl⟩
  | cons image rest ih =>
    cases h with
    | ask _ answer h =>
      cases answer with
      | true =>
        cases h with
        | done => exact ⟨0, by simp, by simp, by simp, by simp, rfl⟩
      | false =>
        cases h with
        | publish _ h =>
          obtain ⟨k, hk, hstopped, rfl, rfl, rfl⟩ := ih h
          refine ⟨k + 1, by simpa using hk, by simpa using hstopped, ?_, ?_, rfl⟩
          · simp [List.replicate_succ]
          · simp [List.range'_succ]

end Job

/-! ## Whole downloads -/

/-- The job after a number of attempts. -/
def jobAfter (m : Mover) (plan : Plan) (files : FileTree) (clock : Clock) (attempts : Nat) : Job :=
  Job.transferEach plan clock 0 (m.candidates.take attempts) ⟨m, files, []⟩

theorem jobAfter_succ (m : Mover) (plan : Plan) (files : FileTree) (clock : Clock) {i : Nat}
    {image : Image} (hi : m.candidates[i]? = some image) :
    m.jobAfter plan files clock (i + 1) =
      Job.transferImage plan clock (2 * i) (m.jobAfter plan files clock i) image := by
  obtain ⟨hlt, -⟩ := List.getElem?_eq_some_iff.1 hi
  have hlength : (m.candidates.take i).length = i := List.length_take_of_le (by omega)
  rw [jobAfter, List.take_add_one, hi, Option.toList_some, Job.transferEach_snoc, hlength,
    Nat.zero_add]
  rfl

@[simp] theorem mode_jobAfter (m : Mover) (plan : Plan) (files : FileTree) (clock : Clock)
    (i : Nat) : (m.jobAfter plan files clock i).mover.mode = m.mode := by
  induction i with
  | zero => rfl
  | succ i ih =>
    cases hi : m.candidates[i]? with
    | none =>
      have hlength : m.candidates.length ≤ i := List.getElem?_eq_none_iff.1 hi
      rw [jobAfter, List.take_of_length_le (by omega), ← List.take_of_length_le hlength]
      exact ih
    | some image => rw [jobAfter_succ m plan files clock hi, Job.mode_transferImage, ih]

/-- What holds at the start and is kept by the attempt at each candidate holds after any number of
attempts. -/
@[elab_as_elim] theorem attempts_induction {m : Mover} {P : Nat → Prop} (hstart : P 0)
    (hnext : ∀ i image, m.candidates[i]? = some image → P i → P (i + 1)) {n : Nat}
    (hn : n ≤ m.candidates.length) : P n := by
  induction n with
  | zero => exact hstart
  | succ n ih =>
    have himage : m.candidates[n]? = some m.candidates[n] := List.getElem?_eq_getElem (by omega)
    exact hnext n _ himage (ih (by omega))

/-- The report of a job that has ended after a number of attempts. -/
def reportAfter (m : Mover) (plan : Plan) (files : FileTree) (clock : Clock) (attempts : Nat) :
    Report :=
  let written := (m.jobAfter plan files clock attempts).written
  if attempts < m.candidates.length then .stopped written m.candidates.length
  else .completed written

@[simp] theorem images_reportAfter (m : Mover) (plan : Plan) (files : FileTree) (clock : Clock)
    (attempts : Nat) : (m.reportAfter plan files clock attempts).images =
      (m.jobAfter plan files clock attempts).written := by
  unfold reportAfter
  simp only
  split <;> rfl

/-- Every course of a planned download attempts some of the candidates and reports what it wrote. -/
theorem course_download {m : Mover} {files : FileTree} (hplan : m.plan? = some plan)
    {answers : List Bool} {events : List Progress} {report : Report} {m' : Mover}
    {files' : FileTree} (h : Course (m.download files clock) answers events (report, m', files')) :
    ∃ k, k ≤ m.candidates.length ∧
      answers = List.replicate k false ++ (if k < m.candidates.length then [true] else []) ∧
      events = .selected m.candidates.length :: (List.range' 1 k).map .processed ∧
      report = m.reportAfter plan files clock k ∧
      m' = (m.jobAfter plan files clock k).mover ∧
      files' = (m.jobAfter plan files clock k).files := by
  unfold download at h
  rw [hplan] at h
  cases h with
  | publish _ h =>
    obtain ⟨⟨stopped, job⟩, answers₁, answers₂, events₁, events₂, hall, hend, rfl, rfl⟩ :=
      Course.of_bind h
    obtain ⟨k, hk, rfl, rfl, rfl, rfl⟩ := Job.course_transferAll hall
    cases hend with
    | done =>
      refine ⟨k, hk, by simp, by simp, ?_, rfl, rfl⟩
      unfold reportAfter
      by_cases hlt : k < m.candidates.length <;> simp [hlt] <;> rfl

/-- Without a plan a download does nothing. -/
theorem course_download_of_not_planned {m : Mover} {files : FileTree} (hplan : m.plan? = none)
    {answers : List Bool} {events : List Progress} {result : Report × Mover × FileTree}
    (h : Course (m.download files clock) answers events result) :
    events = [.selected 0] ∧ result = (.completed [], m, files) := by
  unfold download at h
  rw [hplan] at h
  exact Course.of_publish_done h

/-- How many of the candidates are attempted: those before the first question that is answered
yes. -/
def attempts (answer : Nat → Bool) (candidates : Nat) : Nat :=
  ((List.range candidates).takeWhile fun i => !answer i).length

theorem attempts_le (answer : Nat → Bool) (candidates : Nat) :
    attempts answer candidates ≤ candidates := by
  have hbefore : (List.range candidates).takeWhile (fun i => !answer i) <+: List.range candidates :=
    List.takeWhile_prefix _
  simpa [attempts] using hbefore.length_le

theorem attempts_eq {answer : Nat → Bool} {candidates k : Nat} (hk : k ≤ candidates)
    (hno : ∀ i, i < k → answer i = false) (hyes : k < candidates → answer k = true) :
    attempts answer candidates = k := by
  obtain ⟨rest, rfl⟩ := Nat.exists_eq_add_of_le hk
  have hbefore : ∀ i ∈ List.range k, (!answer i) = true := fun i hi => by
    simp [hno i (List.mem_range.1 hi)]
  rw [attempts, List.range_add, List.takeWhile_append_of_pos hbefore]
  cases rest with
  | zero => simp
  | succ rest => simp [List.range_succ_eq_map, hyes (by omega)]

/-- A planned download attempts its candidates up to the first yes. -/
theorem run_download {m : Mover} (files : FileTree) (clock : Clock) (answer : Nat → Bool)
    (hplan : m.plan? = some plan) :
    let k := attempts answer m.candidates.length
    (m.download files clock).run answer 0 =
      ((m.reportAfter plan files clock k, (m.jobAfter plan files clock k).mover,
          (m.jobAfter plan files clock k).files),
        .selected m.candidates.length :: (List.range' 1 k).map .processed) := by
  intro k
  obtain ⟨n, hcourse⟩ := Course.course_run answer 0 (m.download files clock)
  obtain ⟨k', hk', hanswers, hevents, hreport, hmover, hfiles⟩ := course_download hplan hcourse
  have hlength : n = k' + if k' < m.candidates.length then 1 else 0 := by
    have hlengths := congrArg List.length hanswers
    by_cases hlt : k' < m.candidates.length
    · simpa [hlt] using hlengths
    · simpa [hlt] using hlengths
  have hget (i : Nat) (hi : i < n) :
      (List.replicate k' false ++ if k' < m.candidates.length then [true] else [])[i]? =
        some (answer i) := by
    simp [← hanswers, hi]
  have hk : k = k' := by
    refine attempts_eq hk' (fun i hi => ?_) fun hlt => ?_
    · have hi' := hget i (by omega)
      rw [List.getElem?_append_left (by simpa using hi)] at hi'
      simpa [hi] using hi'.symm
    · have hi' := hget k' (by simp [hlength, hlt])
      simpa [hlt] using hi'.symm
  rw [hk]
  rcases hresult : (m.download files clock).run answer 0 with ⟨⟨report, m', files'⟩, events⟩
  rw [hresult] at hevents hreport hmover hfiles
  simp only at hevents hreport hmover hfiles
  rw [hevents, hreport, hmover, hfiles]

/-! ## A sample -/

/-- A card with two images, and a folder in which a name is taken. -/
def sampleFiles : FileTree :=
  { entries := [(["card"], .folder), (["card", "a"], .file "A".toUTF8 0),
      (["card", "b"], .file "B".toUTF8 0), (["out"], .folder), (["out", "x"], .file "X".toUTF8 0)]
    working := []
    room := none
    clock := 1 }

/-- A selected image with a date. -/
def sampleImage (path : String) : Image :=
  { Image.ofName "" path with captured := some .fallback }

/-- A template of one text. -/
def sampleTemplate (text : String) : Naming.Template :=
  ⟨"K", "N", [.text text], .original, false⟩

/-- A mover of the images on the card, which are all named by one text. -/
def sampleMover (name : String) : Mover :=
  { ofSequences (.ofFile ⟨"s.json"⟩) .move with
    destination := some ⟨"out"⟩
    imageTemplate := some (sampleTemplate name)
    destinationTemplate := some (sampleTemplate "")
    workingSet := ⟨[sampleImage "card/a", sampleImage "card/b"]⟩ }

/-- The plan of that mover. -/
def samplePlan (name : String) : Plan :=
  ⟨⟨"out"⟩, sampleTemplate name, sampleTemplate ""⟩

/-- The clock of the sample. -/
def sampleClock : Clock :=
  .fixed .epoch .epoch

/-- The images on the card have no extensions, so they are named by the text alone. -/
theorem isName_render_sample {name : String} (hname : Path.IsName name) {i : Nat} {o : Occasion}
    (himage : (sampleMover name).candidates[i]? = some o.image) :
    Path.IsName ((samplePlan name).imageTemplate.render o .image) := by
  have hmem : o.image ∈ [sampleImage "card/a", sampleImage "card/b"] := List.mem_of_getElem? himage
  have hextension : o.image.extension = "" := by
    simp only [List.mem_cons, List.not_mem_nil, or_false] at hmem
    rcases hmem with h | h <;> rw [h] <;> rfl
  have hrender : (samplePlan name).imageTemplate.render o .image =
      String.join [name] ++ o.image.extension := rfl
  rw [hrender, hextension]
  simpa [String.join] using hname

end PhotoIntake.Mover
