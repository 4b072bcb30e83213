import PhotoIntake.Download.Command
import PhotoIntake.Proofs.Download.Attempts
import PhotoIntake.Proofs.Sequence.Counting
import PhotoIntake.Proofs.Worker.Passages

/-!
# Effects of the commands of a mover

What handling a command does to the counters and to the files, and which images it reports.  Most
commands do nothing of the kind; a preview looks at the counters, a download counts images, and only
a save writes the counters.

* `Effect`: the four kinds of commands in this regard.
* `AtWork.effect_of_handle`: every course of the handling of a command has one of these effects.
* `effect_of_perform`: so has every passage of the command loop.
-/

namespace PhotoIntake.Mover

variable {clock : Clock} {s s' : AtWork} {command : Command}

/-- The images of an event that reports a download. -/
def Event.reported : Event → List Downloaded
  | .downloadCompleted report => report.images
  | .downloadCancelled report => report.images
  | _ => []

@[simp] theorem Event.reported_ofReport (report : Report) :
    (Event.ofReport report).reported = report.images := by
  unfold ofReport
  split <;> rfl

@[simp] theorem Event.reported_ofProgress (p : Progress) : (Event.ofProgress p).reported = [] := by
  cases p <;> rfl

/-- Only the event at the end of a download reports images. -/
@[simp] theorem reported_download (progress : List Progress) (report : Report) :
    (progress.map Event.ofProgress ++ [Event.ofReport report]).flatMap Event.reported =
      report.images := by
  simp [List.flatMap_map]

/-- The event says that one more candidate was attempted. -/
def Event.isProcessed : Event → Bool
  | .processed _ => true
  | _ => false

/-- The events of a download after some attempts. -/
def downloadEvents (m : Mover) (plan : Plan) (files : FileTree) (clock : Clock) (attempts : Nat) :
    List Event :=
  (.selected m.candidates.length :: (List.range' 1 attempts).map .processed).map .ofProgress ++
    [.ofReport (m.reportAfter plan files clock attempts)]

/-- The events of a download tell how many candidates were attempted. -/
theorem countP_downloadEvents (m : Mover) (plan : Plan) (files : FileTree) (clock : Clock)
    (attempts : Nat) :
    (m.downloadEvents plan files clock attempts).countP Event.isProcessed = attempts := by
  have hreport (report : Report) : (Event.ofReport report).isProcessed = false := by
    unfold Event.ofReport
    split <;> rfl
  have hprocessed : Event.isProcessed ∘ Event.ofProgress ∘ Progress.processed = fun _ => true := rfl
  rw [downloadEvents, List.countP_append, List.countP_singleton, hreport, List.map_cons,
    List.countP_cons_of_neg (by exact Bool.false_ne_true), List.map_map, List.countP_map,
    hprocessed, List.countP_true, List.length_range']
  rfl

/-- What handling a command does to the counters and the files. -/
inductive Effect (clock : Clock) (s : AtWork) : Command → List Event → AtWork → Prop where
  | apart {command : Command} {events : List Event} {s' : AtWork}
      (hplan : command = .download → s.mover.plan? = none)
      (hevents : events.flatMap Event.reported = [])
      (hsequences : s'.mover.sequences = s.mover.sequences) (hfiles : s'.files = s.files) :
      Effect clock s command events s'
  | looked {command : Command} {events : List Event} {s' : AtWork} (hcommand : command ≠ .download)
      (hevents : events.flatMap Event.reported = [])
      (hsequences : s'.mover.sequences = (s.mover.sequences.snapshot s.files (clock.day 0)).2)
      (hfiles : s'.files = s.files) : Effect clock s command events s'
  | downloaded {plan : Plan} {attempts : Nat} {s' : AtWork} (hplan : s.mover.plan? = some plan)
      (hattempts : attempts ≤ s.mover.candidates.length)
      (hmover : s'.mover = (s.mover.jobAfter plan s.files clock attempts).mover)
      (hfiles : s'.files = (s.mover.jobAfter plan s.files clock attempts).files) :
      Effect clock s .download (s.mover.downloadEvents plan s.files clock attempts) s'
  | saved {event : Event} {s' : AtWork} (hevent : event.reported = [])
      (hsequences : s'.mover.sequences = (s.mover.sequences.save s.files).2.1)
      (hfiles : s'.files = (s.mover.sequences.save s.files).2.2) :
      Effect clock s .saveSequences [event] s'

/-- A preview looks at the counters if it can be given, and does nothing otherwise. -/
theorem preview_cases (m : Mover) (t : FileTree) (clock : Clock) (sample : Image) :
    (∃ preview, m.preview t clock sample =
        (some preview, { m with sequences := (m.sequences.snapshot t (clock.day 0)).2 })) ∨
      m.preview t clock sample = (none, m) := by
  unfold preview
  split
  · exact Or.inl ⟨_, rfl⟩
  · exact Or.inr rfl

theorem folders_cases (m : Mover) (t : FileTree) (clock : Clock) :
    (∃ folders, m.folders t clock =
        (folders, { m with sequences := (m.sequences.snapshot t (clock.day 0)).2 })) ∨
      m.folders t clock = ([], m) := by
  unfold folders
  split
  · exact Or.inl ⟨_, rfl⟩
  · exact Or.inr rfl

namespace AtWork

theorem effect_of_previewImage {sample : Image} {answers : List Bool} {events : List Event}
    (h : Course (s.handle clock (.previewImage sample)) answers events s') :
    Effect clock s (.previewImage sample) events s' := by
  unfold handle at h
  rcases preview_cases s.mover s.files clock sample with ⟨preview, hpreview⟩ | hpreview
  · simp only [hpreview] at h
    obtain ⟨rfl, rfl⟩ := Course.of_publish_done h
    exact .looked (by simp) rfl rfl rfl
  · simp only [hpreview] at h
    cases h with
    | done => exact .apart (by simp) rfl rfl rfl

theorem effect_of_previewFolders {answers : List Bool} {events : List Event}
    (h : Course (s.handle clock .previewFolders) answers events s') :
    Effect clock s .previewFolders events s' := by
  unfold handle at h
  rcases folders_cases s.mover s.files clock with ⟨folders, hfolders⟩ | hfolders
  · simp only [hfolders] at h
    obtain ⟨rfl, rfl⟩ := Course.of_publish_done h
    exact .looked (by simp) rfl rfl rfl
  · simp only [hfolders] at h
    obtain ⟨rfl, rfl⟩ := Course.of_publish_done h
    exact .apart (by simp) rfl rfl rfl

theorem effect_of_save {answers : List Bool} {events : List Event}
    (h : Course (s.handle clock .saveSequences) answers events s') :
    Effect clock s .saveSequences events s' := by
  unfold handle saveSequences at h
  simp only at h
  rcases hsave : s.mover.sequences.save s.files with ⟨e | _, sequences, files⟩
  all_goals
    rw [hsave] at h
    obtain ⟨rfl, rfl⟩ := Course.of_publish_done h
    exact .saved rfl (by rw [hsave]) (by rw [hsave])

theorem effect_of_download {answers : List Bool} {events : List Event}
    (h : Course (s.handle clock .download) answers events s') :
    Effect clock s .download events s' := by
  obtain ⟨⟨report, m', files'⟩, answers₁, answers₂, events₁, events₂, hrun, hend, rfl, rfl⟩ :=
    Course.of_bind h
  obtain ⟨events', hdownload, rfl⟩ := Course.of_translate hrun
  obtain ⟨rfl, rfl⟩ := Course.of_publish_done hend
  cases hplan : s.mover.plan? with
  | none =>
    obtain ⟨rfl, hresult⟩ := course_download_of_not_planned hplan hdownload
    obtain ⟨rfl, rfl, rfl⟩ : report = .completed [] ∧ m' = s.mover ∧ files' = s.files := by
      simpa using hresult
    refine .apart (fun _ => hplan) ?_ rfl rfl
    rw [reported_download]
    rfl
  | some plan =>
    obtain ⟨k, hk, -, rfl, rfl, rfl, rfl⟩ := course_download hplan hdownload
    exact .downloaded hplan hk rfl rfl

/-- Every course of the handling of a command has its effect. -/
theorem effect_of_handle {answers : List Bool} {events : List Event}
    (h : Course (s.handle clock command) answers events s') : Effect clock s command events s' := by
  cases command with
  | download => exact effect_of_download h
  | previewImage sample => exact effect_of_previewImage h
  | previewFolders => exact effect_of_previewFolders h
  | saveSequences => exact effect_of_save h
  | _ =>
    cases h with
    | done => exact .apart (by simp) rfl rfl rfl

end AtWork

/-- A passage of the loop has the effect of its command, at the clock of this command. -/
theorem effect_of_perform {clock : Nat → Clock} {mb mb' : Mailbox Command}
    {log : List (Occurrence Command Event)}
    (h : Worker.perform ((worker clock).handle command s) mb = (s', mb', log)) :
    Effect (clock s.handled) s command (log.filterMap Occurrence.event?) s' := by
  obtain ⟨answers, hcourse⟩ := Worker.course_of_perform h
  obtain ⟨s₁, answers₁, answers₂, events₁, events₂, hhandle, hcount, -, hevents⟩ :=
    Course.of_bind hcourse
  cases hcount with
  | done =>
    rw [hevents, List.append_nil]
    -- Counting the command changes neither the mover nor the files.
    cases AtWork.effect_of_handle hhandle with
    | apart hplan hreported hsequences hfiles => exact .apart hplan hreported hsequences hfiles
    | looked hcommand hreported hsequences hfiles =>
      exact .looked hcommand hreported hsequences hfiles
    | downloaded hplan hattempts hmover hfiles => exact .downloaded hplan hattempts hmover hfiles
    | saved hreported hsequences hfiles => exact .saved hreported hsequences hfiles

end PhotoIntake.Mover
