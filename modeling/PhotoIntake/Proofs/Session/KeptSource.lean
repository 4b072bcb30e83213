import PhotoIntake.Proofs.Download.Confinement
import PhotoIntake.Proofs.Download.Preservation
import PhotoIntake.Proofs.FileTree.Sparing
import PhotoIntake.Proofs.Sequence.Saving
import PhotoIntake.Proofs.Session.Bookkeeping

/-!
# Sessions that keep their source

A session that copies writes below its destination, into the file of its store and into that of its
counters.  Where all these lie outside of its source, the source is kept, as it has to be for a
later session to find it again.

* `Transfer.spared_run` and `Mover.spared_jobAfter`: copies spare what they stay out of.
* `Sequences.spared_save` and `HistoryStore.spared_record`: so do the other files of a session.
* `sourceKept_download`: a session that copies keeps its source.
-/

namespace PhotoIntake

open FileTree (Spared StaysOut)

variable {S : Location} {t : FileTree}

/-! ## Copies -/

theorem Transfer.spared_run (hlinks : t.LinkFree) (source : Path) {target : Path}
    (hout : StaysOut S t target) : Spared S t ((run .copy source target).treeAfter t) :=
  FileAction.spared_inFolders hlinks hout fun _ hu =>
    FileAction.spared_copyFile hu.linkFree source (hout.congr hu.working)

namespace Mover

variable {m : Mover} {plan : Plan} {files : FileTree} {clock : Clock}

@[simp] theorem Job.path_transferImage (plan : Plan) (clock : Clock) (index : Nat) (job : Job)
    (image : Image) : (Job.transferImage plan clock (2 * index) job image).mover.sequences.path =
      job.mover.sequences.path := by
  rcases Job.transferImage_cases plan clock index job image with
    ⟨files, -, hjob⟩ | ⟨e, files, -, hjob⟩
  all_goals rw [hjob]
  · exact (Sequences.path_increment _ _ _).trans (Sequences.path_snapshot _ _ _)
  · exact Sequences.path_snapshot _ _ _

/-- The counters stay those of their file. -/
theorem path_jobAfter (m : Mover) (plan : Plan) (files : FileTree) (clock : Clock) {n : Nat}
    (hn : n ≤ m.candidates.length) :
    (m.jobAfter plan files clock n).mover.sequences.path = m.sequences.path := by
  refine attempts_induction rfl (fun i image himage ih => ?_) hn
  rw [jobAfter_succ m plan files clock himage, Job.path_transferImage, ih]

/-- Copies of images with proper names spare what the destination stays out of and is not above. -/
theorem spared_jobAfter (hmode : m.mode = .copy) (hlinks : files.LinkFree)
    (hout : StaysOut S files plan.destination)
    (hbelow : ¬ files.locationOf plan.destination <+: S) {n : Nat}
    (hnames : NamesProper m plan files clock n) {i : Nat} (hi : i ≤ n)
    (hlength : i ≤ m.candidates.length) :
    Spared S files (m.jobAfter plan files clock i).files := by
  revert hi
  refine attempts_induction (fun _ => .refl S hlinks) (fun i image himage ih hi => ?_) hlength
  have hspared := ih (by omega)
  obtain ⟨names, -, -, hcomponents⟩ := Job.liesBelow_target plan clock i
    (m.jobAfter plan files clock i) image (hnames i image (by omega) himage)
  have htarget := (hout.descend hbelow hcomponents).congr hspared.working
  rw [jobAfter_succ m plan files clock himage, Job.files_transferImage, mode_jobAfter, hmode]
  exact hspared.trans (Transfer.spared_run hspared.linkFree image.source htarget)

end Mover

/-! ## The other files of a session -/

/-- Saving the counters spares what the path of their file stays out of. -/
theorem Sequences.spared_save {s : Sequences} (hlinks : t.LinkFree) (hout : StaysOut S t s.path) :
    Spared S t (s.save t).2.2 := by
  cases hdirty : s.isDirty with
  | false =>
    rw [save_of_clean hdirty]
    exact .refl S hlinks
  | true =>
    cases hdurable : s.durable with
    | none =>
      simp only [save, hdurable]
      exact .refl S hlinks
    | some d =>
      have hput := FileAction.spared_putFile hlinks hout d.fileText.toUTF8
      rw [FileAction.treeAfter, ← Sequence.Durable.write_eq] at hput
      rcases save_of_dirty hdurable hdirty t with ⟨t', hwrite, hsave⟩ | ⟨cause, t', hwrite, hsave⟩
      all_goals
        rw [hwrite] at hput
        rw [hsave]
        exact hput

namespace HistoryStore

/-- The file of the store, if it has one, lies where its path stays out of the location. -/
def StaysOut (S : Location) (t : FileTree) (s : HistoryStore) : Prop :=
  ∀ p ∈ s.path, t.StaysOut S p

variable {s : HistoryStore}

theorem files_write {p : Path} (hpath : s.path = some p) (t : FileTree) :
    (s.write t).2 = (FileAction.writeFile p s.history.text.toUTF8).treeAfter t := by
  simp only [write, hpath, FileAction.treeAfter]
  split <;> simp only [*]

theorem spared_write (hlinks : t.LinkFree) (hout : s.StaysOut S t) : Spared S t (s.write t).2 := by
  cases hpath : s.path with
  | none =>
    simp only [write, hpath]
    exact .refl S hlinks
  | some p =>
    rw [files_write hpath]
    exact FileAction.spared_writeFile hlinks (hout p hpath) _

/-- Recording downloads spares what the path of the store stays out of. -/
theorem spared_record (hlinks : t.LinkFree) (hout : s.StaysOut S t)
    (records : List History.Record) : Spared S t (s.record records t).2.2 := by
  unfold record
  cases s.history.record? records with
  | none => exact .refl S hlinks
  | some h =>
    have hwrite := spared_write (s := { s with history := h }) hlinks hout
    simp only [replace]
    rcases hrun : write { s with history := h } t with ⟨e | _, u⟩
    all_goals
      rw [hrun] at hwrite
      exact hwrite

end HistoryStore

/-! ## Whole sessions -/

namespace Session

variable {σ : Type} {s : Session σ} {clock : Clock} {o : Options}

theorem spared_record (hlinks : s.files.LinkFree)
    (hstore : ∀ store ∈ s.store, store.StaysOut S s.files) (records : List History.Record) :
    Spared S s.files (s.record records).2.files ∧ (s.record records).2.mover = s.mover := by
  unfold record
  cases hs : s.store with
  | none => exact ⟨.refl S hlinks, rfl⟩
  | some store =>
    by_cases hrecords : records.isEmpty = true
    · simp only [hrecords, if_true]
      exact ⟨.refl S hlinks, trivial⟩
    · have hspared := HistoryStore.spared_record hlinks (hstore store hs) records
      simp only [hrecords]
      rcases hrun : store.record records s.files with ⟨e | _, store', files⟩
      all_goals
        rw [hrun] at hspared
        exact ⟨hspared, rfl⟩

section Copying

variable (hlinks : s.files.LinkFree) (hmode : o.mode = .copy)
  (hdestination : StaysOut S s.files o.destination)
  (hbelow : ¬ s.files.locationOf o.destination <+: S)
  (hnames : Mover.NamesProper (s.task o).mover o.plan s.files clock (s.offered o).length)

include hlinks hmode hdestination hbelow hnames

/-- The copies of a session spare what its destination stays out of and is not above. -/
theorem spared_lastJob : Spared S s.files (s.lastJob clock o).files := by
  have hcopy : (s.task o).mover.mode = .copy := by
    obtain ⟨images, readerState, -, htask, -⟩ := s.exists_task o
    rw [htask]
    exact hmode
  have hout : StaysOut S s.files o.plan.destination := hdestination
  have hlength : (s.offered o).length ≤ (s.task o).mover.candidates.length := Nat.le_refl _
  rw [lastJob]
  exact Mover.spared_jobAfter hcopy hlinks hout hbelow hnames (Nat.le_refl _) hlength

/-- So do the records of the copies, if the store stays out of it too. -/
theorem spared_recording (hstore : ∀ store ∈ s.store, store.StaysOut S s.files) :
    Spared S s.files (s.recording clock o).2.files ∧
      (s.recording clock o).2.mover = (s.lastJob clock o).mover := by
  have hjob := spared_lastJob hlinks hmode hdestination hbelow hnames
  let job := s.lastJob clock o
  let transferred : Session σ := { s.task o with mover := job.mover, files := job.files }
  have hstore' : ∀ store ∈ transferred.store, store.StaysOut S transferred.files :=
    fun store hmem p hp => (hstore store (s.store_task o ▸ hmem) p hp).congr hjob.working
  have hrecord := spared_record hjob.linkFree hstore'
    (recordsOf (identities s.files (s.offered o)) (.completed job.written))
  rw [recording, transferred_eq]
  exact ⟨hjob.trans hrecord.1, hrecord.2⟩

end Copying

/-- A session that copies keeps a source that its destination, its store and the file of its
counters lie outside of, and that does not lie below the destination. -/
theorem sourceKept_download {e : Entry} (hlinks : s.files.LinkFree)
    (hsource : s.files.entry? o.source = some (S, e)) (hmode : o.mode = .copy)
    (hdestination : StaysOut S s.files o.destination)
    (hbelow : ¬ s.files.locationOf o.destination <+: S)
    (hnames : Mover.NamesProper (s.task o).mover o.plan s.files clock (s.offered o).length)
    (hstore : ∀ store ∈ s.store, store.StaysOut S s.files)
    (hsequences : StaysOut S s.files s.mover.sequences.path) :
    Walk.SourceKept s.files ((s.download clock o).run (fun _ => false) 0).1.2.files o.source := by
  obtain ⟨hrecorded, hmover⟩ := spared_recording hlinks hmode hdestination hbelow hnames hstore
  have hlength : (s.offered o).length ≤ (s.task o).mover.candidates.length := Nat.le_refl _
  have hpath : (s.lastJob clock o).mover.sequences.path = s.mover.sequences.path := by
    rw [lastJob, Mover.path_jobAfter _ _ _ _ hlength, sequences_task]
  have hsaved : StaysOut S (s.recording clock o).2.files
      (s.lastJob clock o).mover.sequences.path := by
    rw [hpath]
    exact hsequences.congr hrecorded.working
  have hfiles : ((s.download clock o).run (fun _ => false) 0).1.2.files =
      ((s.lastJob clock o).mover.sequences.save (s.recording clock o).2.files).2.2 := by
    show (s.download clock o).result.2.files = _
    rw [result_download, ← hmover]
    rfl
  rw [hfiles]
  exact (hrecorded.trans (Sequences.spared_save hrecorded.linkFree hsaved)).sourceKept hlinks
    hsource

end Session

end PhotoIntake
