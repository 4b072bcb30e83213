import PhotoIntake.Proofs.Download.Effects
import PhotoIntake.Proofs.Download.Sparing

/-!
# Previews leave no trace

A preview looks at the counters, which may load them, may begin a new day and may leave something to
write.  So a run with previews and the same run without them have counters that were brought up to
date at different moments, and write their file at different moments.  But nothing else tells them
apart.

* `Request` is what a mover can be asked for, `Told` is what it tells, and `operateAll` is a run.
* `Forward`: the days that the clocks of a run show never go back.
* `AtWork.SparesAll`: no attempt of a run has anything to do with the file of the counters.
* `AtWork.alike_look` and `AtWork.operate_alike` carry the likeness of two movers over a preview of
  one of them, and over the same step of both.
* `previews_unobservable`: the run with the previews tells the same and leaves the same files, and
  its file of the counters shows the same counters.
-/

namespace PhotoIntake.Mover

open Calendar (Date)
open FileTree (linkFree_of_entries bypasses_of_linkFree leads_of_name)

/-! ## Runs of a mover -/

/-- What a mover can be asked for: a command, with the answers to its questions, or its counters. -/
inductive Request where
  | command (command : Command) (answer : Nat → Bool)
  | counters

/-- The request is for a preview. -/
def Request.isPreview : Request → Bool
  | command (.previewImage _) _ => true
  | command .previewFolders _ => true
  | _ => false

/-- A request, and what the clock shows meanwhile. -/
structure Step where
  clock : Clock
  request : Request

/-- What a mover tells at a request: the events, the counters if these were asked for, and the
candidates that there are then. -/
structure Told where
  events : List Event
  counters : Option Counters
  candidates : List Image
  deriving DecidableEq

namespace AtWork

/-- The mover after a request, and what it tells. -/
def operate (s : AtWork) (step : Step) : AtWork × Told :=
  match step.request with
  | .command command answer =>
    let (s, events) := (s.handle step.clock command).run answer 0
    (s, ⟨events, none, s.mover.candidates⟩)
  | .counters =>
    let (counters, sequences) := s.mover.sequences.snapshot s.files (step.clock.day 0)
    let s := { s with mover := { s.mover with sequences } }
    (s, ⟨[], some counters, s.mover.candidates⟩)

/-- The mover after requests in turn, and what it tells at those that are not for previews. -/
def operateAll : AtWork → List Step → AtWork × List Told
  | s, [] => (s, [])
  | s, step :: rest =>
    let (s, told) := s.operate step
    let (s, others) := s.operateAll rest
    (s, if step.request.isPreview then others else told :: others)

theorem operateAll_cons (s : AtWork) (step : Step) (rest : List Step) :
    s.operateAll (step :: rest) =
      (((s.operate step).1.operateAll rest).1,
        if step.request.isPreview then ((s.operate step).1.operateAll rest).2
        else (s.operate step).2 :: ((s.operate step).1.operateAll rest).2) :=
  rfl

end AtWork

/-- The requests of a run that are not for previews. -/
def plain (steps : List Step) : List Step :=
  steps.filter fun step => !step.request.isPreview

/-- The days of the clocks never go back, neither within a request nor from one to a later one, and
none of them is before the year 0. -/
structure Forward (clocks : List Clock) : Prop where
  within : ∀ c ∈ clocks, ∀ r r', r ≤ r' → ¬ c.day r' < c.day r
  between : clocks.Pairwise fun c c' => ∀ r r', ¬ c'.day r' < c.day r
  years : ∀ c ∈ clocks, ∀ r, 0 ≤ (c.day r).year

theorem Forward.tail {c : Clock} {rest : List Clock} (h : Forward (c :: rest)) : Forward rest where
  within c' hc' := h.within c' (List.mem_cons_of_mem c hc')
  between := h.between.tail
  years c' hc' := h.years c' (List.mem_cons_of_mem c hc')

namespace AtWork

variable {path : Path} {l : Location} {today later : Date} {s s' : AtWork} {step : Step}
  {clock : Clock} {command : Command} {answer : Nat → Bool} {steps : List Step}

/-- If the request is for a download, its attempts have nothing to do with the file of the
counters. -/
def Spares (path : Path) (l : Location) (s : AtWork) (step : Step) : Prop :=
  ∀ answer plan, step.request = .command .download answer → s.mover.plan? = some plan →
    ∀ i image, i < attempts answer s.mover.candidates.length →
      s.mover.candidates[i]? = some image →
      (s.mover.jobAfter plan s.files step.clock i).Spares path l plan step.clock i image

/-- So have those of all downloads of a run. -/
def SparesAll (path : Path) (l : Location) : AtWork → List Step → Prop
  | _, [] => True
  | s, step :: rest => s.Spares path l step ∧ SparesAll path l (s.operate step).1 rest

/-- The movers at work are the same but for their sequences and the file of the counters, and tell
the same ever after. -/
def Alike (path : Path) (l : Location) (today : Date) (s s' : AtWork) : Prop :=
  Mover.Alike path l today s.mover s'.mover s.files s'.files

theorem alike_ofMover (path : Path) (mode : TransferMode) {files : FileTree}
    (htree : files.WellFormed) (hroom : files.room = none) (hfile : files.OnlyFile l)
    (hleads : files.Leads path l) (today : Date) :
    Alike path l today (.ofMover (.ofSequences (.ofFile path) mode) files)
      (.ofMover (.ofSequences (.ofFile path) mode) files) :=
  ⟨rfl, .refl htree hroom hfile, hleads, Sequences.twins_ofFile path l files today⟩

/-! ## One request -/

/-- A request for a preview looks at the counters, or at nothing. -/
theorem operate_preview (s : AtWork) (hpreview : step.request.isPreview = true) :
    (s.operate step).1 = { s with mover := { s.mover with
        sequences := (s.mover.sequences.snapshot s.files (step.clock.day 0)).2 } } ∨
      (s.operate step).1 = s := by
  obtain ⟨clock, command | _⟩ := step
  · cases command with
    | previewImage sample =>
      unfold operate handle
      rcases preview_cases s.mover s.files clock sample with ⟨preview, h⟩ | h
      · simp only [h]
        exact Or.inl rfl
      · simp only [h]
        exact Or.inr rfl
    | previewFolders =>
      unfold operate handle
      rcases folders_cases s.mover s.files clock with ⟨folders, h⟩ | h
      · simp only [h]
        exact Or.inl rfl
      · simp only [h]
        exact Or.inr rfl
    | _ => exact absurd hpreview Bool.false_ne_true
  · exact absurd hpreview Bool.false_ne_true

/-- The second mover gives a preview. -/
theorem alike_look (h : Alike path l today s s') (hpreview : step.request.isPreview = true)
    (hday : ¬ step.clock.day 0 < today) (hyear : 0 ≤ (step.clock.day 0).year) :
    Alike path l (step.clock.day 0) s (s'.operate step).1 := by
  have hlater := h.mono hday
  rcases operate_preview s' hpreview with hlooked | hnothing
  · rw [hlooked]
    refine ⟨?_, hlater.trees, hlater.leads, hlater.twins.look hyear⟩
    conv_lhs => rw [hlater.mover]
  · rw [hnothing]
    exact hlater

/-- Both movers are told to change what has nothing to do with the counters. -/
theorem alike_setting (h : Alike path l today s s') {f : Mover → Mover}
    (hhandle : ∀ s : AtWork, s.handle clock command = .done { s with mover := f s.mover })
    (hf : ∀ m sequences, f { m with sequences } = { f m with sequences }) :
    let after := s.operate ⟨clock, .command command answer⟩
    let after' := s'.operate ⟨clock, .command command answer⟩
    after'.2 = after.2 ∧ Alike path l today after.1 after'.1 := by
  intro after after'
  have hrun (s : AtWork) : s.operate ⟨clock, .command command answer⟩ =
      ({ s with mover := f s.mover }, ⟨[], none, (f s.mover).candidates⟩) := by
    simp only [operate, hhandle, Dialogue.run]
  have hsequences (m : Mover) : (f m).sequences = m.sequences :=
    calc (f m).sequences = (f { m with sequences := m.sequences }).sequences := rfl
      _ = m.sequences := by rw [hf]
  have hmover : f s'.mover = { f s.mover with sequences := s'.mover.sequences } := by
    rw [h.mover, hf]
  rw [show after = _ from hrun s, show after' = _ from hrun s']
  refine ⟨?_, ?_, h.trees, h.leads, ?_⟩
  · show Told.mk _ _ (f s'.mover).candidates = _
    rw [hmover]
    rfl
  · show f s'.mover = { f s.mover with sequences := (f s'.mover).sequences }
    rw [hsequences, hmover]
  · show Sequences.Twins path l s.files s'.files today (f s.mover).sequences (f s'.mover).sequences
    rw [hsequences, hsequences]
    exact h.twins

/-- Both movers save their counters. -/
theorem alike_save (h : Alike path l today s s') :
    let after := s.operate ⟨clock, .command .saveSequences answer⟩
    let after' := s'.operate ⟨clock, .command .saveSequences answer⟩
    after'.2 = after.2 ∧ Alike path l today after.1 after'.1 := by
  intro after after'
  have hrun (s : AtWork) {sequences : Sequences} {files : FileTree}
      (hsave : s.mover.sequences.save s.files = (.ok (), sequences, files)) :
      s.operate ⟨clock, .command .saveSequences answer⟩ =
        ({ s with mover := { s.mover with sequences }, files },
          ⟨[.sequencesSaved], none, s.mover.candidates⟩) := by
    simp only [operate, handle, saveSequences, hsave, Dialogue.run]
    rfl
  obtain ⟨u, u', hsave, hsave', htrees, hleads, htwins⟩ := h.twins.save h.trees h.leads
  rw [show after = _ from hrun s hsave, show after' = _ from hrun s' hsave']
  refine ⟨?_, ?_, htrees, hleads, htwins⟩
  · rw [h.candidates_eq]
  · conv_lhs => rw [h.mover]

/-- Both movers show their counters. -/
theorem alike_counters (h : Alike path l (clock.day 0) s s') (hyear : 0 ≤ (clock.day 0).year) :
    let after := s.operate ⟨clock, .counters⟩
    let after' := s'.operate ⟨clock, .counters⟩
    after'.2 = after.2 ∧ Alike path l (clock.day 0) after.1 after'.1 := by
  intro after after'
  have hrun (s : AtWork) : s.operate ⟨clock, .counters⟩ =
      ({ s with mover := { s.mover with
          sequences := (s.mover.sequences.snapshot s.files (clock.day 0)).2 } },
        ⟨[], some (s.mover.sequences.snapshot s.files (clock.day 0)).1, s.mover.candidates⟩) := rfl
  obtain ⟨hshown, htwins⟩ := h.snapshot hyear
  rw [show after = _ from hrun s, show after' = _ from hrun s', hshown, h.candidates_eq]
  refine ⟨rfl, ?_, h.trees, h.leads, htwins⟩
  conv_lhs => rw [h.mover]

/-- A planned download makes its attempts and tells of them. -/
theorem operate_download (s : AtWork) {plan : Plan} (hplan : s.mover.plan? = some plan) :
    let k := attempts answer s.mover.candidates.length
    let job := s.mover.jobAfter plan s.files clock k
    s.operate ⟨clock, .command .download answer⟩ =
      ({ s with mover := job.mover, files := job.files },
        ⟨s.mover.downloadEvents plan s.files clock k, none, job.mover.candidates⟩) := by
  intro k job
  simp only [operate, handle, Dialogue.run_bind_publish, Dialogue.run_translate,
    run_download s.files clock answer hplan]
  rfl

/-- Without a plan a download tells that there is nothing to do. -/
theorem operate_download_of_not_planned (s : AtWork) (hplan : s.mover.plan? = none) :
    s.operate ⟨clock, .command .download answer⟩ =
      (s, ⟨[.selected 0, .downloadCompleted (.completed [])], none, s.mover.candidates⟩) := by
  simp only [operate, handle, download, hplan]
  rfl

/-- Both movers download. -/
theorem alike_download (h : Alike path l (clock.day 0) s s')
    (hday : ∀ r r', r ≤ r' → ¬ clock.day r' < clock.day r) (hyear : ∀ r, 0 ≤ (clock.day r).year)
    (hspares : s.Spares path l ⟨clock, .command .download answer⟩) :
    let after := s.operate ⟨clock, .command .download answer⟩
    let after' := s'.operate ⟨clock, .command .download answer⟩
    after'.2 = after.2 ∧ ∃ r, Alike path l (clock.day r) after.1 after'.1 := by
  intro after after'
  have hplan' := h.plan?_eq
  have hcandidates := h.candidates_eq
  cases hplan : s.mover.plan? with
  | none =>
    rw [show after = _ from operate_download_of_not_planned s hplan,
      show after' = _ from operate_download_of_not_planned s' (hplan'.trans hplan), hcandidates]
    exact ⟨rfl, 0, h⟩
  | some plan =>
    let k := attempts answer s.mover.candidates.length
    obtain ⟨halike, hwritten⟩ := Mover.Alike.jobAfter h hday hyear (attempts_le answer _)
      fun i image => hspares answer plan rfl hplan i image
    have hreport : s'.mover.reportAfter plan s'.files clock k =
        s.mover.reportAfter plan s.files clock k := by
      rw [reportAfter, reportAfter, hwritten, hcandidates]
    have hevents : s'.mover.downloadEvents plan s'.files clock k =
        s.mover.downloadEvents plan s.files clock k := by
      rw [downloadEvents, downloadEvents, hreport, hcandidates]
    rw [show after = _ from operate_download s hplan,
      show after' = _ from operate_download s' (hplan'.trans hplan), hcandidates]
    refine ⟨?_, 2 * k, halike⟩
    rw [hevents, halike.candidates_eq]

/-- At a request that is not for a preview both movers tell the same. -/
theorem operate_alike (h : Alike path l (step.clock.day 0) s s')
    (hpreview : step.request.isPreview = false)
    (hday : ∀ r r', r ≤ r' → ¬ step.clock.day r' < step.clock.day r)
    (hyear : ∀ r, 0 ≤ (step.clock.day r).year) (hspares : s.Spares path l step) :
    (s'.operate step).2 = (s.operate step).2 ∧
      ∃ r, Alike path l (step.clock.day r) (s.operate step).1 (s'.operate step).1 := by
  have hstart {after after' : AtWork × Told}
      (halike : after'.2 = after.2 ∧ Alike path l (step.clock.day 0) after.1 after'.1) :
      after'.2 = after.2 ∧ ∃ r, Alike path l (step.clock.day r) after.1 after'.1 :=
    ⟨halike.1, 0, halike.2⟩
  obtain ⟨clock, command | _⟩ := step
  · cases command with
    | setDestination path =>
      exact hstart (alike_setting h (f := fun m => { m with destination := some path })
        (fun _ => rfl) fun _ _ => rfl)
    | setMode mode =>
      exact hstart (alike_setting h (f := fun m => { m with mode }) (fun _ => rfl) fun _ _ => rfl)
    | setImageTemplate template =>
      exact hstart (alike_setting h (f := fun m => { m with imageTemplate := some template })
        (fun _ => rfl) fun _ _ => rfl)
    | setDestinationTemplate template =>
      exact hstart (alike_setting h (f := fun m => { m with destinationTemplate := some template })
        (fun _ => rfl) fun _ _ => rfl)
    | setImages images =>
      exact hstart (alike_setting h (f := fun m => m.withImages images)
        (fun _ => rfl) fun _ _ => rfl)
    | clearImages =>
      exact hstart (alike_setting h (f := fun m => { m with workingSet := .empty })
        (fun _ => rfl) fun _ _ => rfl)
    | addImages images =>
      exact hstart (alike_setting h
        (f := fun m => { m with workingSet := m.workingSet.addAll images })
        (fun _ => rfl) fun _ _ => rfl)
    | updateImages keys update =>
      exact hstart (alike_setting h
        (f := fun m => { m with workingSet := m.workingSet.update keys update })
        (fun _ => rfl) fun _ _ => rfl)
    | cancel => exact hstart (alike_setting h (f := id) (fun _ => rfl) fun _ _ => rfl)
    | previewImage sample => exact absurd hpreview Bool.true_eq_false_eq_False
    | previewFolders => exact absurd hpreview Bool.true_eq_false_eq_False
    | download => exact alike_download h hday hyear hspares
    | saveSequences => exact hstart (alike_save h)
  · exact hstart (alike_counters h (hyear 0))

/-- Two movers that are alike stay so when the second one gives previews in between, and both tell
the same. -/
theorem operateAll_alike (h : Alike path l today s s') (hclocks : Forward (steps.map Step.clock))
    (hstart : ∀ step ∈ steps, ∀ r, ¬ step.clock.day r < today)
    (hspares : s.SparesAll path l (plain steps)) :
    (s'.operateAll steps).2 = (s.operateAll (plain steps)).2 ∧
      ∃ last, Alike path l last (s.operateAll (plain steps)).1 (s'.operateAll steps).1 ∧
        ∀ later, ¬ later < today → (∀ step ∈ steps, ∀ r, ¬ later < step.clock.day r) →
          ¬ later < last := by
  induction steps generalizing s s' today with
  | nil => exact ⟨rfl, today, h, fun later hlater _ => hlater⟩
  | cons step rest ih =>
    have hfirst : step.clock ∈ (step :: rest).map Step.clock := List.mem_cons_self
    have hwithin := hclocks.within _ hfirst
    have hyear := hclocks.years _ hfirst
    have hnext (r : Nat) : ∀ step' ∈ rest, ∀ r', ¬ step'.clock.day r' < step.clock.day r :=
      fun step' hstep' r' => List.rel_of_pairwise_cons hclocks.between
        (List.mem_map_of_mem hstep') r r'
    have hday := hstart step List.mem_cons_self 0
    -- A day that is not before those of all steps is not before those of the rest.
    have hlast {last : Date} {r : Nat} (hrest : ∀ later, ¬ later < step.clock.day r →
        (∀ step' ∈ rest, ∀ r', ¬ later < step'.clock.day r') → ¬ later < last) :
        ∀ later, ¬ later < today → (∀ step' ∈ step :: rest, ∀ r', ¬ later < step'.clock.day r') →
          ¬ later < last :=
      fun later _ hlater => hrest later (hlater step List.mem_cons_self r)
        fun step' hstep' => hlater step' (List.mem_cons_of_mem step hstep')
    rw [operateAll_cons]
    cases hpreview : step.request.isPreview with
    | true =>
      have hplain : plain (step :: rest) = plain rest := by simp [plain, hpreview]
      rw [hplain] at hspares ⊢
      rw [if_pos rfl]
      have hlooked := alike_look h hpreview hday (hyear 0)
      obtain ⟨htold, last, halike, hrest⟩ := ih hlooked hclocks.tail (hnext 0) hspares
      exact ⟨htold, last, halike, hlast hrest⟩
    | false =>
      have hplain : plain (step :: rest) = step :: plain rest := by simp [plain, hpreview]
      rw [hplain] at hspares ⊢
      obtain ⟨htold, r, hstepped⟩ := operate_alike (h.mono hday) hpreview hwithin hyear hspares.1
      obtain ⟨hothers, last, halike, hrest⟩ := ih hstepped hclocks.tail (hnext r) hspares.2
      rw [operateAll_cons, hpreview, if_neg Bool.false_ne_true, if_neg Bool.false_ne_true, htold,
        hothers]
      exact ⟨rfl, last, halike, hlast hrest⟩

end AtWork

/-! ## Whole runs -/

/-- The path of the counters leads to a location, where there is a regular file or nothing, in a
folder that is there; the disk is not short of room; the days of the clocks do not go back; and in
the run without the previews no attempt of a download has anything to do with the file.  Then the
run with the previews tells the same, it leaves the same files, and its file of the counters reads
back to the same stored number and the same number of today. -/
theorem previews_unobservable (path : Path) (l : Location) (files : FileTree) (mode : TransferMode)
    (steps : List Step) (htree : files.WellFormed) (hroom : files.room = none)
    (hfile : files.OnlyFile l) (hleads : files.Leads path l)
    (hclocks : Forward (steps.map Step.clock))
    (hspares : (AtWork.ofMover (.ofSequences (.ofFile path) mode) files).SparesAll path l
      (plain steps)) :
    let start := AtWork.ofMover (.ofSequences (.ofFile path) mode) files
    let watched := start.operateAll steps
    let unwatched := start.operateAll (plain steps)
    watched.2 = unwatched.2 ∧
      (∀ k, k ≠ l → watched.1.files.get? k = unwatched.1.files.get? k) ∧
      ∀ today, (∀ step ∈ steps, ∀ r, ¬ today < step.clock.day r) →
        ((Sequences.ofFile path).snapshot watched.1.files today).1 =
          ((Sequences.ofFile path).snapshot unwatched.1.files today).1 := by
  intro start watched unwatched
  have hstart : start.Alike path l .earliest start :=
    AtWork.alike_ofMover path mode htree hroom hfile hleads .earliest
  obtain ⟨htold, last, halike, hlast⟩ :=
    AtWork.operateAll_alike hstart hclocks (fun _ _ _ => Date.not_lt_earliest _) hspares
  refine ⟨htold, halike.trees.get?_of_ne, fun today htoday => ?_⟩
  have hnotBefore := hlast today (Date.not_lt_earliest today) htoday
  exact (halike.mono hnotBefore).twins.fresh

/-! ### A sample -/

/-- Clocks that stand still on days that do not go back. -/
theorem forward_fixed (now : Calendar.DateTime) {days : List Date}
    (hdays : days.Pairwise fun d d' => ¬ d' < d) (hyears : ∀ d ∈ days, 0 ≤ d.year) :
    Forward (days.map (Clock.fixed now)) where
  within c hc _ _ _ := by
    obtain ⟨d, -, rfl⟩ := List.mem_map.1 hc
    exact Date.lt_irrefl d
  between := List.pairwise_map.2 (hdays.imp fun h _ _ => h)
  years c hc _ := by
    obtain ⟨d, hd, rfl⟩ := List.mem_map.1 hc
    exact hyears d hd

/-- The day after the epoch. -/
def sampleLater : Date :=
  ⟨1970, 1, 2, by decide⟩

/-- The card with counters of the day before the epoch. -/
def sampleCounted (room : Option Nat) : FileTree :=
  let d : Sequence.Durable := ⟨⟨⟨1969, 12, 31, by decide⟩, 3⟩, 7⟩
  { sampleFiles with
    entries := sampleFiles.entries ++ [(["s.json"], .file d.fileText.toUTF8 0)]
    room := room }

/-- A copy of one file is planned and previewed on the epoch, and previewed again and made on the
day after. -/
def sampleSteps (source : String) : List Step :=
  let day (today : Date) (commands : List Command) : List Step :=
    commands.map fun command => ⟨.fixed .epoch today, .command command fun _ => false⟩
  day .epoch [.setDestination ⟨"out"⟩, .setImageTemplate (sampleTemplate "y"),
      .setDestinationTemplate (sampleTemplate ""), .setImages [sampleImage source],
      .previewImage (sampleImage source)] ++
    day sampleLater [.previewFolders, .saveSequences, .download] ++
    [⟨.fixed .epoch sampleLater, .counters⟩]

/-- The mover of the sample when the copy is to be made, without previews. -/
def sampleReady : AtWork :=
  .ofMover { sampleMover "y" with workingSet := ⟨[sampleImage "card/a"]⟩, mode := .copy }
    (sampleCounted none)

theorem forward_sample (source : String) : Forward ((sampleSteps source).map Step.clock) := by
  have hclocks : (sampleSteps source).map Step.clock =
      (List.replicate 5 Date.epoch ++ List.replicate 4 sampleLater).map (Clock.fixed .epoch) := rfl
  rw [hclocks]
  exact forward_fixed .epoch (by decide) (by decide)

/-- The sample with a mover that keeps its counters under a path. -/
def sampleStart (path : String) (room : Option Nat) : AtWork :=
  .ofMover (.ofSequences (.ofFile ⟨path⟩) .copy) (sampleCounted room)

/-- Nothing tells of counters that could not be saved. -/
def allSaved (told : List Told) : Bool :=
  told.all fun t => t.events.all fun e => e.tag != "sequences_save_failed"

/-- The attempt of the sample stays in the folders of the card and of the copies. -/
theorem spares_sample :
    Job.Spares ⟨"s.json"⟩ ["s.json"] (samplePlan "y") (.fixed .epoch sampleLater) 0
      ⟨sampleReady.mover, sampleReady.files, []⟩ (sampleImage "card/a") := by
  have hlinks : sampleReady.files.LinkFree :=
    linkFree_of_entries (by simp [sampleReady, AtWork.ofMover, sampleCounted, sampleFiles])
  have hprepared : (Job.prepared (samplePlan "y") (.fixed .epoch sampleLater) 0
      ⟨sampleReady.mover, sampleReady.files, []⟩ (sampleImage "card/a")).LinkFree :=
    (Transfer.prepare_adds _ sampleReady.files).linkFree hlinks
  refine ⟨bypasses_of_linkFree hprepared ?_ ?_ ?_, bypasses_of_linkFree hprepared ?_ ?_ ?_,
    leads_of_name rfl ?_ ?_, ?_⟩
  all_goals decide +kernel

theorem sparesAll_sample :
    (sampleStart "s.json" none).SparesAll ⟨"s.json"⟩ ["s.json"] (plain (sampleSteps "card/a")) := by
  have hother {s : AtWork} {step : Step} (h : ∀ answer, step.request ≠ .command .download answer) :
      s.Spares ⟨"s.json"⟩ ["s.json"] step := fun answer _ hrequest => absurd hrequest (h answer)
  have hdownload : sampleReady.Spares ⟨"s.json"⟩ ["s.json"]
      ⟨.fixed .epoch sampleLater, .command .download fun _ => false⟩ := by
    intro answer plan _ hplan i image hi himage
    obtain rfl : samplePlan "y" = plan := Option.some.inj hplan
    have hlength : sampleReady.mover.candidates.length = 1 := rfl
    have hle := attempts_le answer sampleReady.mover.candidates.length
    obtain rfl : i = 0 := by omega
    obtain rfl : sampleImage "card/a" = image := Option.some.inj himage
    exact spares_sample
  exact ⟨hother nofun, hother nofun, hother nofun, hother nofun, hother nofun, hdownload,
    hother nofun, trivial⟩

/-- A file of the card is copied, and the counters are written on the way only where previews were
given. -/
theorem previews_unobservable_sample :
    let start := AtWork.ofMover (.ofSequences (.ofFile ⟨"s.json"⟩) .copy) (sampleCounted none)
    let watched := start.operateAll (sampleSteps "card/a")
    let unwatched := start.operateAll (plain (sampleSteps "card/a"))
    watched.1.files.contentOf ⟨"s.json"⟩ ≠ unwatched.1.files.contentOf ⟨"s.json"⟩ ∧
      watched.2 = unwatched.2 ∧
      watched.1.files.get? ["out", "y"] = unwatched.1.files.get? ["out", "y"] := by
  have htree : (sampleCounted none).WellFormed := FileTree.wellFormed_of_entries
    (by simp [sampleCounted, sampleFiles, FileTree.get?, List.lookup_cons]) rfl
  have hfile : (sampleCounted none).OnlyFile ["s.json"] := fun _ he =>
    ⟨_, _, (Option.some.inj he).symm⟩
  have hleads : (sampleCounted none).Leads ⟨"s.json"⟩ ["s.json"] :=
    leads_of_name rfl (by decide +kernel) (by decide +kernel)
  have hall := previews_unobservable ⟨"s.json"⟩ ["s.json"] (sampleCounted none) .copy
    (sampleSteps "card/a") htree rfl hfile hleads (forward_sample "card/a") sparesAll_sample
  dsimp only at hall ⊢
  exact ⟨by decide +kernel, hall.1, hall.2.1 ["out", "y"] (by decide)⟩

/-- Elsewhere previews can be seen, although no day goes back and all counters are saved: a copy of
the file of the counters shows when this was written; a folder that is created for it takes a name;
and what is written there takes the room of an image. -/
theorem previews_observable :
    (∀ source, Forward ((sampleSteps source).map Step.clock)) ∧
    (let watched := (sampleStart "s.json" none).operateAll (sampleSteps "s.json")
      let unwatched := (sampleStart "s.json" none).operateAll (plain (sampleSteps "s.json"))
      allSaved (watched.2 ++ unwatched.2) = true ∧
        watched.1.files.contentOf ⟨"out/y"⟩ ≠ unwatched.1.files.contentOf ⟨"out/y"⟩) ∧
    (let watched := (sampleStart "out/y/s.json" none).operateAll (sampleSteps "card/a")
      let unwatched := (sampleStart "out/y/s.json" none).operateAll (plain (sampleSteps "card/a"))
      allSaved (watched.2 ++ unwatched.2) = true ∧ watched.2 ≠ unwatched.2) ∧
    (let watched := (sampleStart "s.json" (some 72)).operateAll (sampleSteps "card/a")
      let unwatched := (sampleStart "s.json" (some 72)).operateAll (plain (sampleSteps "card/a"))
      allSaved (watched.2 ++ unwatched.2) = true ∧ watched.2 ≠ unwatched.2) :=
  ⟨forward_sample, by decide +kernel, by decide +kernel, by decide +kernel⟩

end PhotoIntake.Mover
