import PhotoIntake.Download.Mover
import PhotoIntake.Worker.Loop

/-!
# The mover as a worker

The commands that a mover takes, the events that it publishes, and how it handles a command.  Only
a request to cancel interrupts a download.  When it ends it writes the counters.
-/

namespace PhotoIntake.Mover

/-- What a mover can be told. -/
inductive Command where
  | setDestination (path : Path)
  | setMode (mode : TransferMode)
  | setImageTemplate (template : Naming.Template)
  | setDestinationTemplate (template : Naming.Template)
  | setImages (images : List Image)
  | clearImages
  | addImages (images : List Image)
  | updateImages (keys : List ImageKey) (update : ImageUpdate)
  | previewImage (sample : Image)
  | previewFolders
  | download
  | cancel
  | saveSequences
  deriving DecidableEq

namespace Command

/-- The tag of a command. -/
def tag : Command → String
  | setDestination _ => "set_destination"
  | setMode _ => "set_transfer_mode"
  | setImageTemplate _ => "set_image_template"
  | setDestinationTemplate _ => "set_destination_template"
  | setImages _ => "set_images"
  | clearImages => "clear_images"
  | addImages _ => "add_images"
  | updateImages _ _ => "update_images_info"
  | previewImage _ => "get_image_preview"
  | previewFolders => "get_folders_preview"
  | download => "download"
  | cancel => "cancel"
  | saveSequences => "save_sequences"

/-- The command interrupts a download. -/
def isCancel : Command → Bool
  | cancel => true
  | _ => false

end Command

/-- What a mover publishes. -/
inductive Event where
  | imagePreview (preview : Preview)
  | folderPreview (folders : List String)
  | selected (images : Nat)
  | processed (images : Nat)
  | downloadCompleted (report : Report)
  | downloadCancelled (report : Report)
  | sequencesSaved
  | sequencesNotSaved (message : String)
  deriving DecidableEq

namespace Event

/-- The tag of an event. -/
def tag : Event → String
  | imagePreview _ => "image_preview"
  | folderPreview _ => "folder_preview"
  | selected _ => "selected_images_count"
  | processed _ => "downloaded_images_count"
  | downloadCompleted _ => "download_completed"
  | downloadCancelled _ => "download_cancelled"
  | sequencesSaved => "sequences_saved"
  | sequencesNotSaved _ => "sequences_save_failed"

/-- The event of a progress. -/
def ofProgress : Progress → Event
  | .selected total => selected total
  | .processed images => processed images

/-- The event of a report. -/
def ofReport (report : Report) : Event :=
  if report.cancelled then downloadCancelled report else downloadCompleted report

end Event

/-- A mover at work on a file tree, and how many commands it has handled. -/
structure AtWork where
  mover : Mover
  files : FileTree
  handled : Nat

namespace AtWork

/-- A mover at the start of its work. -/
def ofMover (mover : Mover) (files : FileTree) : AtWork :=
  ⟨mover, files, 0⟩

/-- Write the counters; what goes wrong is not told. -/
def finish (s : AtWork) : AtWork :=
  let (_, mover, files) := s.mover.saveSequences s.files
  { s with mover, files }

/-- Handle a command at a moment. -/
def handle (clock : Clock) (command : Command) (s : AtWork) : Handling Command Event AtWork :=
  let m := s.mover
  let next (mover : Mover) : Handling Command Event AtWork := .done { s with mover }
  match command with
  | .setDestination path => next { m with destination := some path }
  | .setMode mode => next { m with mode }
  | .setImageTemplate template => next { m with imageTemplate := some template }
  | .setDestinationTemplate template => next { m with destinationTemplate := some template }
  | .setImages images => next (m.withImages images)
  | .clearImages => next { m with workingSet := .empty }
  | .addImages images => next { m with workingSet := m.workingSet.addAll images }
  | .updateImages keys update => next { m with workingSet := m.workingSet.update keys update }
  | .previewImage sample =>
    match m.preview s.files clock sample with
    | (some preview, mover) => .publish (.imagePreview preview) (next mover)
    | (none, mover) => next mover
  | .previewFolders =>
    let (folders, mover) := m.folders s.files clock
    .publish (.folderPreview folders) (next mover)
  | .download =>
    ((m.download s.files clock).translate (fun _ => Command.isCancel) Event.ofProgress).bind
      fun (report, mover, files) =>
        .publish (.ofReport report) (.done { s with mover, files })
  | .cancel => next m
  | .saveSequences =>
    match m.saveSequences s.files with
    | (.ok (), mover, files) => .publish .sequencesSaved (.done { s with mover, files })
    | (.error e, mover, files) =>
      .publish (.sequencesNotSaved e.message) (.done { s with mover, files })

end AtWork

/-- The mover as a worker; the clock of a command depends on how many came before. -/
def worker (clock : Nat → Clock) : Worker AtWork Command Event where
  prepare s := s
  handle command s :=
    s.handle (clock s.handled) command |>.bind fun s => .done { s with handled := s.handled + 1 }
  finish s := s.finish

end PhotoIntake.Mover
