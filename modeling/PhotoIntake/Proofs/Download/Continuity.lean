import PhotoIntake.Proofs.Download.Effects
import PhotoIntake.Proofs.Download.Numbering
import PhotoIntake.Proofs.Sequence.Saving
import PhotoIntake.Proofs.Worker.Passages

/-!
# Numbers that go on from run to run

Every run of the mover starts with counters that it has not read yet and ends by writing them.  In
between it handles commands in any order.  This module follows the stored number through the
attempts of a download, the passages of a run, and one run after the other.

* `Rendering`: an image that a download writes, with the counters at which it is named.
* `Numbered` is the invariant of the attempts of a download, `InStep` that of the passages of a run.
* `stored_numbers_continue`: over all runs the stored numbers are consecutive, and the session
  number starts again with every run.
-/

namespace PhotoIntake.Mover

open Naming (Occasion)
open Sequence (Durable)

variable {m : Mover} {plan : Plan} {files : FileTree} {clock : Clock}

/-! ## Images and their numbers -/

/-- An image that was written, and the counters at which it was named. -/
structure Rendering where
  counters : Counters
  image : Downloaded

/-- The image went where a plan puts it when it is named at the counters. -/
def Rendering.IsNamed (r : Rendering) : Prop :=
  ∃ (plan : Plan) (files : FileTree) (o : Occasion), o.counters = r.counters ∧
    o.image.key = r.image.key ∧ plan.target files o = r.image.destination

/-- The images are numbered one after the other. -/
structure Consecutive (stored session : Nat) (rs : List Rendering) : Prop where
  stored : rs.map (·.counters.storedNumber) = List.range' stored rs.length
  session : rs.map (·.counters.sessionNumber) = List.range' session rs.length

namespace Consecutive

variable {stored session : Nat} {rs rs' : List Rendering}

theorem nil (stored session : Nat) : Consecutive stored session [] :=
  ⟨rfl, rfl⟩

theorem append (h : Consecutive stored session rs)
    (h' : Consecutive (stored + rs.length) (session + rs.length) rs') :
    Consecutive stored session (rs ++ rs') := by
  constructor
  · rw [List.map_append, h.stored, h'.stored, List.length_append, List.range'_append_1]
  · rw [List.map_append, h.session, h'.session, List.length_append, List.range'_append_1]

theorem singleton (r : Rendering) :
    Consecutive r.counters.storedNumber r.counters.sessionNumber [r] :=
  ⟨rfl, rfl⟩

end Consecutive

/-! ## The attempts of a download -/

/-- The images that are written by some attempts. -/
def renderings (m : Mover) (plan : Plan) (files : FileTree) (clock : Clock) (attempts : Nat) :
    List Rendering :=
  (m.successes plan files clock attempts).filterMap fun i =>
    m.candidates[i]?.map fun image =>
      let job := m.jobAfter plan files clock i
      ⟨(job.occasion clock i image).counters, job.downloaded plan clock i image⟩

theorem renderings_succ (plan : Plan) (files : FileTree) (clock : Clock) {i : Nat} {image : Image}
    (himage : m.candidates[i]? = some image) :
    m.renderings plan files clock (i + 1) = m.renderings plan files clock i ++
      if m.attemptSucceeds plan files clock i then
        [⟨((m.jobAfter plan files clock i).occasion clock i image).counters,
          (m.jobAfter plan files clock i).downloaded plan clock i image⟩] else [] := by
  rw [renderings, successes_succ, List.filterMap_append, renderings]
  congr 1
  split
  · simp [himage]
  · rfl

theorem isNamed_of_mem_renderings {attempts : Nat} {r : Rendering}
    (h : r ∈ m.renderings plan files clock attempts) : r.IsNamed := by
  obtain ⟨i, -, hi⟩ := List.mem_filterMap.1 h
  obtain ⟨image, -, rfl⟩ := Option.map_eq_some_iff.1 hi
  let job := m.jobAfter plan files clock i
  exact ⟨plan, job.files, job.occasion clock i image, rfl, rfl,
    (Job.destination_downloaded plan clock i job image).symm⟩

/-- After some attempts the counters have advanced by the images written so far, which are numbered
one after the other, and what is not in the file is still marked. -/
structure Numbered (m : Mover) (files : FileTree) (job : Job) (rs : List Rendering) : Prop where
  path : job.mover.sequences.path = m.sequences.path
  stored : job.mover.sequences.nextStored job.files = m.sequences.nextStored files + rs.length
  session : job.mover.sequences.sessionNumber = m.sequences.sessionNumber + rs.length
  backed : ∀ n, m.sequences.Backed files n → job.mover.sequences.Backed job.files n
  written : job.written = rs.map Rendering.image
  numbers : Consecutive (m.sequences.nextStored files) m.sequences.sessionNumber rs

theorem numbered_start (m : Mover) (files : FileTree) : Numbered m files ⟨m, files, []⟩ [] :=
  ⟨rfl, rfl, rfl, fun _ h => h, rfl, .nil _ _⟩

namespace Numbered

variable {job : Job} {rs : List Rendering} {i : Nat} {image : Image} {files' : FileTree}

/-- An image that is named next gets the next numbers. -/
theorem numbers_snoc (h : Numbered m files job rs) (d : Downloaded) :
    Consecutive (m.sequences.nextStored files) m.sequences.sessionNumber
      (rs ++ [⟨(job.occasion clock i image).counters, d⟩]) := by
  refine h.numbers.append ?_
  rw [← h.stored, ← h.session]
  have hcounters : (job.occasion clock i image).counters =
      (job.mover.sequences.snapshot job.files (clock.day (2 * i))).1 := rfl
  have hsingle := Consecutive.singleton ⟨(job.occasion clock i image).counters, d⟩
  rwa [hcounters, Sequences.storedNumber_snapshot,
    (Sequences.sessionNumber_snapshot _ _ _).1] at hsingle

/-- An attempt that fails looks at the counters. -/
theorem failed (h : Numbered m files job rs) (hyear : 0 ≤ (clock.day (2 * i)).year) :
    Numbered m files { job with
      mover := { job.mover with sequences := job.sequencesAt clock i }, files := files' } rs where
  path := (Sequences.path_snapshot _ _ _).trans h.path
  stored := (Sequences.nextStored_snapshot _ _ _ _).trans h.stored
  session := (Sequences.sessionNumber_snapshot _ _ _).2.trans h.session
  backed n hn := (h.backed n hn).snapshot hyear files'
  written := h.written
  numbers := h.numbers

/-- An attempt that succeeds counts its image. -/
theorem succeeded (h : Numbered m files job rs) (hyear : 0 ≤ (clock.day (2 * i + 1)).year)
    (d : Downloaded) :
    Numbered m files
      { mover := Mover.written { job.mover with
          sequences := (job.sequencesAt clock i).increment files' (clock.day (2 * i + 1)) } d
        files := files'
        written := job.written ++ [d] }
      (rs ++ [⟨(job.occasion clock i image).counters, d⟩]) where
  path := (Sequences.path_increment _ _ _).trans ((Sequences.path_snapshot _ _ _).trans h.path)
  stored := by
    show ((job.sequencesAt clock i).increment files' _).nextStored files' = _
    rw [Sequences.nextStored_increment, Job.sequencesAt, Sequences.nextStored_snapshot, h.stored,
      List.length_append, List.length_singleton, Nat.add_assoc]
  session := by
    show ((job.sequencesAt clock i).increment files' _).sessionNumber = _
    rw [Sequences.sessionNumber_increment, Job.sequencesAt,
      (Sequences.sessionNumber_snapshot _ _ _).2, h.session, List.length_append,
      List.length_singleton, Nat.add_assoc]
  backed n _ := by
    show ((job.sequencesAt clock i).increment files' _).Backed files' n
    exact .increment _ _ _ hyear n
  written := by rw [h.written, List.map_append, List.map_singleton]
  numbers := h.numbers_snoc d

end Numbered

theorem numbered_jobAfter (m : Mover) (plan : Plan) (files : FileTree)
    (hyears : ∀ reading, 0 ≤ (clock.day reading).year) {i : Nat} (hi : i ≤ m.candidates.length) :
    Numbered m files (m.jobAfter plan files clock i) (m.renderings plan files clock i) := by
  refine attempts_induction (numbered_start m files) ?_ hi
  intro i image himage h
  have hrenderings := renderings_succ plan files clock himage
  rcases jobAfter_succ_cases m plan files clock himage with
    ⟨hsucceeds, files', hjob⟩ | ⟨hsucceeds, files', hjob⟩
  · rw [hsucceeds, if_pos rfl] at hrenderings
    rw [hjob, hrenderings]
    exact h.succeeded (hyears _) _
  · rw [hsucceeds, if_neg Bool.false_ne_true, List.append_nil] at hrenderings
    rw [hjob, hrenderings]
    exact h.failed (hyears _)

/-! ## The passages of a run -/

/-- The images that are written when a command is handled: those of a download. -/
def renderingsOf (clock : Clock) (s : AtWork) (command : Command) (events : List Event) :
    List Rendering :=
  match command, s.mover.plan? with
  | .download, some plan =>
    s.mover.renderings plan s.files clock (events.countP Event.isProcessed)
  | _, _ => []

theorem renderingsOf_of_not_planned {s : AtWork} {command : Command} (events : List Event)
    (h : command = .download → s.mover.plan? = none) :
    renderingsOf clock s command events = [] := by
  unfold renderingsOf
  split
  · next hplan => simp [h rfl] at hplan
  · rfl

theorem renderingsOf_download {s : AtWork} (hplan : s.mover.plan? = some plan) (attempts : Nat) :
    renderingsOf clock s .download (s.mover.downloadEvents plan s.files clock attempts) =
      s.mover.renderings plan s.files clock attempts := by
  simp only [renderingsOf, hplan, countP_downloadEvents]

/-- Between two commands the next image gets the given numbers, and the file will be brought up to
date. -/
structure InStep (path : Path) (stored session : Nat) (s : AtWork) : Prop where
  file : s.mover.sequences.path = path
  stored : s.mover.sequences.nextStored s.files = stored
  session : s.mover.sequences.sessionNumber = session
  backed : s.mover.sequences.Backed s.files (Durable.storedIn path s.files)
  words : ∀ d ∈ s.mover.sequences.durable, d.InWords

namespace InStep

variable {path : Path} {stored session : Nat} {s s' : AtWork} {command : Command}
  {events : List Event}

/-- A state with the counters of one in step is in step. -/
theorem of_counters (h : InStep path stored session s)
    (hpath : s'.mover.sequences.path = s.mover.sequences.path)
    (hstored : s'.mover.sequences.nextStored s'.files = s.mover.sequences.nextStored s.files)
    (hsession : s'.mover.sequences.sessionNumber = s.mover.sequences.sessionNumber)
    (hbacked : s'.mover.sequences.Backed s'.files (Durable.storedIn path s'.files))
    (hwords : ∀ d ∈ s'.mover.sequences.durable, d.InWords) : InStep path stored session s' where
  file := hpath.trans h.file
  stored := hstored.trans h.stored
  session := hsession.trans h.session
  backed := hbacked
  words := hwords

/-- A save that succeeds leaves the counters in step, since it brings the file up to date. -/
theorem saved (h : InStep path stored session s)
    (hsaved : (s.mover.sequences.save s.files).1 = .ok ())
    (hsequences : s'.mover.sequences = (s.mover.sequences.save s.files).2.1)
    (hfiles : s'.files = (s.mover.sequences.save s.files).2.2)
    (hwords : ∀ d ∈ s'.mover.sequences.durable, d.InWords) : InStep path stored session s' := by
  have hbacked : s.mover.sequences.Backed s.files
      (Durable.storedIn s.mover.sequences.path s.files) := h.file ▸ h.backed
  obtain ⟨hpath, hsession, hnext, -, hback⟩ := hbacked.save h.words hsaved
  rw [h.file] at hback
  refine h.of_counters ?_ ?_ ?_ ?_ hwords
  · rw [hsequences, hpath]
  · rw [hsequences, hfiles]
    exact hnext
  · rw [hsequences]
    exact hsession
  · rw [hsequences, hfiles]
    exact hback

/-- A download that leaves the file alone numbers its images one after the other. -/
theorem downloaded (h : InStep path stored session s)
    (hyears : ∀ reading, 0 ≤ (clock.day reading).year) {attempts : Nat}
    (hattempts : attempts ≤ s.mover.candidates.length)
    (hmover : s'.mover = (s.mover.jobAfter plan s.files clock attempts).mover)
    (hfiles : s'.files = (s.mover.jobAfter plan s.files clock attempts).files)
    (hread : Durable.read? path s'.files = Durable.read? path s.files)
    (hwords : ∀ d ∈ s'.mover.sequences.durable, d.InWords) :
    let rs := s.mover.renderings plan s.files clock attempts
    Consecutive stored session rs ∧
      (s.mover.downloadEvents plan s.files clock attempts).flatMap Event.reported =
        rs.map Rendering.image ∧
      InStep path (stored + rs.length) (session + rs.length) s' := by
  intro rs
  have hnumbered := numbered_jobAfter s.mover plan s.files hyears hattempts
  have hfile : Durable.storedIn path s'.files = Durable.storedIn path s.files := by
    rw [Durable.storedIn, Durable.storedIn, hread]
  refine ⟨?_, ?_, ⟨?_, ?_, ?_, ?_, hwords⟩⟩
  · rw [← h.stored, ← h.session]
    exact hnumbered.numbers
  · rw [downloadEvents, reported_download, images_reportAfter, hnumbered.written]
  · rw [hmover, hnumbered.path, h.file]
  · rw [hmover, hfiles, hnumbered.stored, h.stored]
  · rw [hmover, hnumbered.session, h.session]
  · rw [hfile, hmover, hfiles]
    exact hnumbered.backed _ h.backed

/-- Handling a command numbers its images one after the other, reports them, and stays in step. -/
theorem effect (h : InStep path stored session s) (heffect : Effect clock s command events s')
    (hyears : ∀ reading, 0 ≤ (clock.day reading).year)
    (hsave : command = .saveSequences → (s.mover.sequences.save s.files).1 = .ok ())
    (hdownload : command = .download →
      Durable.read? path s'.files = Durable.read? path s.files)
    (hwords : ∀ d ∈ s'.mover.sequences.durable, d.InWords) :
    let rs := renderingsOf clock s command events
    Consecutive stored session rs ∧ events.flatMap Event.reported = rs.map Rendering.image ∧
      InStep path (stored + rs.length) (session + rs.length) s' := by
  intro rs
  cases heffect with
  | apart hplan hevents hsequences hfiles =>
    have hnone : rs = [] := renderingsOf_of_not_planned events hplan
    rw [hnone]
    refine ⟨.nil _ _, hevents, h.of_counters ?_ ?_ ?_ ?_ hwords⟩
    · rw [hsequences]
    · rw [hsequences, hfiles]
    · rw [hsequences]
    · rw [hsequences, hfiles]
      exact h.backed
  | looked hcommand hevents hsequences hfiles =>
    have hnone : rs = [] := renderingsOf_of_not_planned events fun h => absurd h hcommand
    rw [hnone]
    refine ⟨.nil _ _, hevents, h.of_counters ?_ ?_ ?_ ?_ hwords⟩
    · rw [hsequences, Sequences.path_snapshot]
    · rw [hsequences, hfiles, Sequences.nextStored_snapshot]
    · rw [hsequences, (Sequences.sessionNumber_snapshot _ _ _).2]
    · rw [hsequences, hfiles]
      exact h.backed.snapshot (hyears 0) s.files
  | @downloaded plan attempts _ hplan hattempts hmover hfiles =>
    have hrs : rs = s.mover.renderings plan s.files clock attempts :=
      renderingsOf_download hplan attempts
    rw [hrs]
    exact h.downloaded hyears hattempts hmover hfiles (hdownload rfl) hwords
  | @saved event _ hevent hsequences hfiles =>
    have hnone : rs = [] := rfl
    rw [hnone]
    refine ⟨.nil _ _, ?_, h.saved (hsave rfl) hsequences hfiles hwords⟩
    simp [hevent]

end InStep

/-- The images that are written in some passages, in their order. -/
def renderingsIn (clock : Nat → Clock) (ps : List (Passage AtWork Command Event)) :
    List Rendering :=
  ps.flatMap fun p => renderingsOf (clock p.before.handled) p.before p.command p.events

theorem isNamed_of_mem_renderingsIn {clock : Nat → Clock}
    {ps : List (Passage AtWork Command Event)} {r : Rendering} (h : r ∈ renderingsIn clock ps) :
    r.IsNamed := by
  obtain ⟨p, -, hp⟩ := List.mem_flatMap.1 h
  unfold renderingsOf at hp
  split at hp
  · exact isNamed_of_mem_renderings hp
  · exact absurd hp List.not_mem_nil

/-- A passage in which a save succeeds, a download leaves the file of the counters as it is, and no
counter comes to exceed 32 bits. -/
structure Quiet (path : Path) (p : Passage AtWork Command Event) : Prop where
  save : p.command = .saveSequences → (p.before.mover.sequences.save p.before.files).1 = .ok ()
  download : p.command = .download →
    Durable.read? path p.after.files = Durable.read? path p.before.files
  words : ∀ d ∈ p.after.mover.sequences.durable, d.InWords

instance (path : Path) (p : Passage AtWork Command Event) : Decidable (Quiet path p) :=
  decidable_of_iff
    ((p.command = .saveSequences → (p.before.mover.sequences.save p.before.files).1 = .ok ()) ∧
      (p.command = .download →
        Durable.read? path p.after.files = Durable.read? path p.before.files) ∧
      ∀ d ∈ p.after.mover.sequences.durable, d.InWords)
    ⟨fun ⟨hsave, hdownload, hwords⟩ => ⟨hsave, hdownload, hwords⟩,
      fun h => ⟨h.save, h.download, h.words⟩⟩

/-- Passages that follow each other number their images one after the other. -/
theorem InStep.passages {clock : Nat → Clock} {path : Path} {stored session : Nat} {s : AtWork}
    {ps : List (Passage AtWork Command Event)} (h : InStep path stored session s)
    (hpassing : Worker.Passing (worker clock) s ps)
    (hyears : ∀ n reading, 0 ≤ ((clock n).day reading).year) (hquiet : ∀ p ∈ ps, Quiet path p) :
    let rs := renderingsIn clock ps
    Consecutive stored session rs ∧
      (ps.flatMap Passage.events).flatMap Event.reported = rs.map Rendering.image ∧
      InStep path (stored + rs.length) (session + rs.length) (Worker.stateAfter s ps) := by
  induction hpassing generalizing stored session with
  | nil s => exact ⟨.nil _ _, rfl, h⟩
  | @cons c s s' mb mb' log rest hperform hrest ih =>
    intro rs
    have hfirst := hquiet _ List.mem_cons_self
    obtain ⟨hconsecutive, hreported, hstep⟩ :=
      h.effect (effect_of_perform hperform) (hyears s.handled) hfirst.save hfirst.download
        hfirst.words
    obtain ⟨hconsecutive', hreported', hstep'⟩ :=
      ih hstep fun p hp => hquiet p (List.mem_cons_of_mem _ hp)
    have hrs : rs = renderingsOf (clock s.handled) s c (log.filterMap Occurrence.event?) ++
        renderingsIn clock rest := List.flatMap_cons
    rw [hrs, List.length_append, ← Nat.add_assoc, ← Nat.add_assoc, List.map_append, ← hreported',
      ← hreported, List.flatMap_cons, List.flatMap_append]
    exact ⟨hconsecutive.append hconsecutive', rfl, hstep'⟩

/-- The last save of a run leaves the next number in the file. -/
theorem InStep.finish {path : Path} {stored session : Nat} {s : AtWork}
    (h : InStep path stored session s) (hsaved : (s.mover.sequences.save s.files).1 = .ok ()) :
    Durable.storedIn path s.finish.files = stored := by
  have hbacked : s.mover.sequences.Backed s.files
      (Durable.storedIn s.mover.sequences.path s.files) := h.file ▸ h.backed
  obtain ⟨-, -, -, hstored, -⟩ := hbacked.save h.words hsaved
  rw [h.file, h.stored] at hstored
  exact hstored

/-! ## Runs -/

/-- A run of a mover: its clock, the mode that it starts in, the files that it finds, and the
requests that it gets. -/
structure Run where
  clock : Nat → Clock
  mode : TransferMode
  files : FileTree
  mailbox : Mailbox Command

namespace Run

/-- The mover at the start of a run on a file of counters. -/
def start (path : Path) (r : Run) : AtWork :=
  .ofMover (.ofSequences (.ofFile path) r.mode) r.files

/-- How a run comes to rest. -/
def rest (path : Path) (r : Run) : Worker.Rest AtWork Command Event :=
  (worker r.clock).run (r.start path) r.mailbox

/-- The commands that are handled in a run. -/
def passages (path : Path) (r : Run) : List (Passage AtWork Command Event) :=
  (worker r.clock).passages (r.start path) r.mailbox

/-- The state after the last command of a run. -/
def last (path : Path) (r : Run) : AtWork :=
  Worker.stateAfter (r.start path) (r.passages path)

/-- The images in the reports of all downloads of a run. -/
def reported (path : Path) (r : Run) : List Downloaded :=
  (r.rest path).events.flatMap Event.reported

/-- The images that are written in a run, with the counters at which they are named. -/
def renderings (path : Path) (r : Run) : List Rendering :=
  renderingsIn r.clock (r.passages path)

/-- A run that ends, in which all saves succeed, the last one included, nothing else changes the
file of the counters, no counter exceeds 32 bits, and the clock shows no year before zero. -/
structure Undisturbed (path : Path) (r : Run) : Prop where
  ended : (r.rest path).ended = true
  quiet : ∀ p ∈ r.passages path, Quiet path p
  saved : ((r.last path).mover.sequences.save (r.last path).files).1 = .ok ()
  years : ∀ n reading, 0 ≤ ((r.clock n).day reading).year

theorem inStep_start (path : Path) (r : Run) :
    InStep path (Durable.storedIn path r.files) 1 (r.start path) where
  file := rfl
  stored := rfl
  session := rfl
  backed := Sequences.backed_ofFile path r.files
  words d hd := by cases hd

theorem passing (path : Path) (r : Run) :
    Worker.Passing (worker r.clock) (r.start path) (r.passages path) :=
  (Worker.loop_passes (worker r.clock) (r.start path) r.mailbox).1

theorem reported_eq (path : Path) (r : Run) :
    r.reported path = ((r.passages path).flatMap Passage.events).flatMap Event.reported :=
  congrArg (List.flatMap Event.reported)
    (Worker.loop_passes (worker r.clock) (r.start path) r.mailbox).2.1

theorem state_rest {path : Path} {r : Run} (hended : (r.rest path).ended = true) :
    (r.rest path).state = (r.last path).finish :=
  (Worker.loop_passes (worker r.clock) (r.start path) r.mailbox).2.2.trans (if_pos hended)

/-- A run numbers its images from the number in the file on, and leaves the next number there. -/
theorem numbers {path : Path} {r : Run} (h : r.Undisturbed path) :
    Consecutive (Durable.storedIn path r.files) 1 (r.renderings path) ∧
      r.reported path = (r.renderings path).map Rendering.image ∧
      Durable.storedIn path (r.rest path).state.files =
        Durable.storedIn path r.files + (r.renderings path).length := by
  obtain ⟨hconsecutive, hreported, hlast⟩ :=
    (inStep_start path r).passages (r.passing path) h.years h.quiet
  refine ⟨hconsecutive, (r.reported_eq path).trans hreported, ?_⟩
  rw [state_rest h.ended]
  exact hlast.finish h.saved

end Run

/-- The stored numbers of runs that follow each other go on from the number at the start. -/
theorem Run.stored_numbers {path : Path} {first : Run} {later : List Run}
    (hruns : ∀ r ∈ first :: later, r.Undisturbed path)
    (hfile : (first :: later).IsChain fun r next =>
      Durable.read? path next.files = Durable.read? path (r.rest path).state.files) :
    let all := (first :: later).flatMap (Run.renderings path)
    all.map (·.counters.storedNumber) =
      List.range' (Durable.storedIn path first.files) all.length := by
  induction later generalizing first with
  | nil =>
    obtain ⟨hconsecutive, -, -⟩ := Run.numbers (hruns first List.mem_cons_self)
    simpa using hconsecutive.stored
  | cons next later ih =>
    obtain ⟨hnext, hlater⟩ := List.isChain_cons_cons.1 hfile
    obtain ⟨hconsecutive, -, hleft⟩ := Run.numbers (hruns first List.mem_cons_self)
    have hothers := ih (fun r hr => hruns r (List.mem_cons_of_mem _ hr)) hlater
    have hstart : Durable.storedIn path next.files =
        Durable.storedIn path first.files + (first.renderings path).length := by
      rw [← hleft, Durable.storedIn, Durable.storedIn, hnext]
    rw [hstart] at hothers
    intro all
    have hall : all = first.renderings path ++ (next :: later).flatMap (Run.renderings path) :=
      List.flatMap_cons
    rw [hall, List.map_append, hconsecutive.stored, hothers, List.length_append,
      List.range'_append_1]

/-- Take runs one after the other on one file of counters, each with any requests, which find that
file as the run before has left it.  The images in all their reports are named at stored numbers
that go on by one from the number in the file at the start, and at session numbers that go on by
one from 1 in every run. -/
theorem stored_numbers_continue (path : Path) (first : Run) (later : List Run)
    (hruns : ∀ r ∈ first :: later, r.Undisturbed path)
    (hfile : (first :: later).IsChain fun r next =>
      Durable.read? path next.files = Durable.read? path (r.rest path).state.files) :
    let all := (first :: later).flatMap (Run.renderings path)
    all.map (·.counters.storedNumber) =
        List.range' (Durable.storedIn path first.files) all.length ∧
      ∀ r ∈ first :: later, r.reported path = (r.renderings path).map Rendering.image ∧
        (∀ named ∈ r.renderings path, named.IsNamed) ∧
        (r.renderings path).map (·.counters.sessionNumber) =
          List.range' 1 (r.renderings path).length := by
  refine ⟨Run.stored_numbers hruns hfile, fun r hr => ?_⟩
  obtain ⟨hconsecutive, hreported, -⟩ := Run.numbers (hruns r hr)
  exact ⟨hreported, fun _ => isNamed_of_mem_renderingsIn, hconsecutive.session⟩

/-! ## A sample -/

/-- A run that downloads one image from the card, saves the counters, and is told to stop. -/
def sampleRun (files : FileTree) (image : String) : Run where
  clock _ := sampleClock
  mode := .move
  files := files
  mailbox :=
    { deferred := []
      arrivals := [.request (.run (.setDestination ⟨"out"⟩)),
        .request (.run (.setImageTemplate (sampleTemplate "x"))),
        .request (.run (.setDestinationTemplate (sampleTemplate ""))),
        .request (.run (.setImages [sampleImage image])),
        .request (.run .download), .nothing,
        .request (.run .saveSequences), .request .stop]
      closes := false }

/-- The second of two runs goes on from the number that the first one has left. -/
theorem stored_numbers_continue_sample :
    let path : Path := ⟨"s.json"⟩
    let first := sampleRun sampleFiles "card/a"
    let next := sampleRun (first.rest path).state.files "card/b"
    (first.Undisturbed path ∧ next.Undisturbed path) ∧
      ([first, next].flatMap (Run.renderings path)).map (·.counters.storedNumber) = [1, 2] := by
  intro path first next
  have hyear : 0 ≤ Calendar.Date.epoch.year := by decide
  have hfirst : first.Undisturbed path :=
    ⟨by decide +kernel, by decide +kernel, by decide +kernel, fun _ _ => hyear⟩
  have hnext : next.Undisturbed path :=
    ⟨by decide +kernel, by decide +kernel, by decide +kernel, fun _ _ => hyear⟩
  have hall := stored_numbers_continue path first [next] (by simp [hfirst, hnext])
    (by simp [next, sampleRun])
  have hlength : ([first, next].flatMap (Run.renderings path)).length = 2 := by decide +kernel
  have hstart : Durable.storedIn path first.files = 1 := by decide +kernel
  refine ⟨⟨hfirst, hnext⟩, hall.1.trans ?_⟩
  rw [hlength, hstart]
  rfl

end PhotoIntake.Mover
