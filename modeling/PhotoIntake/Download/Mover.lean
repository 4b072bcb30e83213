import PhotoIntake.Download.Transfer
import PhotoIntake.Download.WorkingSet
import PhotoIntake.Naming.Template
import PhotoIntake.Sequence.Basic
import PhotoIntake.Worker.Dialogue

/-!
# The mover

The mover holds what a download needs: the destination, the two templates, the working set and the
sequences.  It previews names and folders, and it downloads: every candidate is named, transferred
and, when that succeeds, counted.  Before each image it asks whether to stop.
-/

namespace PhotoIntake

/-- What the clock shows during an operation: the time at its start, and the day at each of its
readings. -/
structure Clock where
  now : Calendar.DateTime
  day : Nat → Calendar.Date

namespace Clock

/-- A clock that stands still. -/
def fixed (now : Calendar.DateTime) (today : Calendar.Date) : Clock :=
  ⟨now, fun _ => today⟩

end Clock

/-- An image that was written. -/
structure Downloaded where
  key : ImageKey
  time : Calendar.DateTime
  destination : Path
  deriving DecidableEq

/-- The outcome of a download: the images that were written, in order. -/
structure Report where
  message : String
  cancelled : Bool
  images : List Downloaded
  deriving DecidableEq

namespace Report

/-- The report of a download that ran to its end. -/
def completed (images : List Downloaded) : Report :=
  { message := "Download completed! " ++ Decimal.text images.length ++ " images downloaded."
    cancelled := false
    images := images }

/-- The report of a download that was stopped. -/
def stopped (images : List Downloaded) (total : Nat) : Report :=
  { message := "Download cancelled! " ++ Decimal.text images.length ++ " / " ++
      Decimal.text total ++ " images downloaded."
    cancelled := true
    images := images }

end Report

/-- What a download tells while it runs: how many images there are, and how many are done. -/
inductive Progress where
  | selected (total : Nat)
  | processed (images : Nat)
  deriving DecidableEq

/-- The name and the folder of an image. -/
structure Preview where
  name : String
  folder : String
  deriving DecidableEq

/-- The folder that a rendered text means below a root.  Only the names of the text count, so it
cannot lead out of the root. -/
def folderBelow (root : Path) (rendered : String) : Path :=
  root.descend (Path.mk rendered).names

/-- What a download needs. -/
structure Mover where
  destination : Option Path
  imageTemplate : Option Naming.Template
  destinationTemplate : Option Naming.Template
  workingSet : WorkingSet
  sequences : Sequences
  mode : TransferMode

namespace Mover

open Naming (Template Occasion)

/-- A mover with nothing set but its sequences and its mode. -/
def ofSequences (sequences : Sequences) (mode : TransferMode) : Mover :=
  { destination := none
    imageTemplate := none
    destinationTemplate := none
    workingSet := .empty
    sequences := sequences
    mode := mode }

/-- The mover with another working set. -/
def withImages (m : Mover) (images : List Image) : Mover :=
  { m with workingSet := .ofImages images }

/-- The images that a download would transfer. -/
def candidates (m : Mover) : List Image :=
  m.workingSet.candidates

/-- The folder of a rendered text; without a destination, the text itself. -/
def folderOf (m : Mover) (rendered : String) : Path :=
  match m.destination with
  | some destination => folderBelow destination rendered
  | none => ⟨rendered⟩

/-- The name and the folder that an image would get next. -/
def preview (m : Mover) (t : FileTree) (clock : Clock) (sample : Image) : Option Preview × Mover :=
  match m.imageTemplate, m.destinationTemplate with
  | some imageTemplate, some destinationTemplate =>
    let (counters, sequences) := m.sequences.snapshot t (clock.day 0)
    let o : Occasion := ⟨sample, counters, clock.now⟩
    let folder := m.folderOf (destinationTemplate.render o .destination)
    (some ⟨imageTemplate.render o .image, folder.text⟩, { m with sequences })
  | _, _ => (none, m)

/-- The items without those that were there before. -/
def firstSeen (items : List String) : List String :=
  items.foldl (fun seen s => if seen.contains s then seen else seen ++ [s]) []

/-- The folders that the candidates would go to, in the order in which they are first needed. -/
def folders (m : Mover) (t : FileTree) (clock : Clock) : List String × Mover :=
  match m.destinationTemplate with
  | some template =>
    let (counters, sequences) := m.sequences.snapshot t (clock.day 0)
    let folder (image : Image) : String :=
      (m.folderOf (template.render ⟨image, counters, clock.now⟩ .destination)).text
    (firstSeen (m.candidates.map folder), { m with sequences })
  | none => ([], m)

/-- The mover after an image was written. -/
def written (m : Mover) (d : Downloaded) : Mover :=
  { m with workingSet := m.workingSet.change d.key fun image =>
      { image with mark := .marked d.destination.text d.time, isSelected := false } }

/-- Where images go and how they are named. -/
structure Plan where
  destination : Path
  imageTemplate : Template
  destinationTemplate : Template

/-- The plan of the next download, if all of it is set. -/
def plan? (m : Mover) : Option Plan := do
  let destination ← m.destination
  let imageTemplate ← m.imageTemplate
  let destinationTemplate ← m.destinationTemplate
  return { destination, imageTemplate, destinationTemplate }

namespace Plan

/-- The folder of an image. -/
def folder (plan : Plan) (o : Occasion) : Path :=
  folderBelow plan.destination (plan.destinationTemplate.render o .destination)

/-- Where an image goes: a free name in its folder. -/
def target (plan : Plan) (t : FileTree) (o : Occasion) : Path :=
  let folder := plan.folder o
  folder.join ⟨Transfer.freeName t folder (plan.imageTemplate.render o .image)⟩

end Plan

/-- A download under way: the mover, the files, and the images written so far. -/
structure Job where
  mover : Mover
  files : FileTree
  written : List Downloaded

namespace Job

/-- Name and transfer one image.  The clock is read before and after the transfer.  An image that
cannot be transferred changes no counter. -/
def transferImage (plan : Plan) (clock : Clock) (reading : Nat) (job : Job) (image : Image) : Job :=
  let (counters, sequences) := job.mover.sequences.snapshot job.files (clock.day reading)
  let target := plan.target job.files ⟨image, counters, clock.now⟩
  match (Transfer.run job.mover.mode image.source target).runOn job.files with
  | (.ok (), files) =>
    let sequences := sequences.increment files (clock.day (reading + 1))
    let d : Downloaded := ⟨image.key, clock.now, target⟩
    { mover := { job.mover with sequences }.written d
      files := files
      written := job.written ++ [d] }
  | (.error _, files) => { job with mover := { job.mover with sequences }, files }

/-- Transfer images until told to stop; the result says whether that happened. -/
def transferAll (plan : Plan) (clock : Clock) :
    Nat → List Image → Job → Dialogue Unit Progress (Bool × Job)
  | _, [], job => .done (false, job)
  | index, image :: rest, job =>
    .ask () fun stop =>
      if stop then .done (true, job)
      else
        let job := transferImage plan clock (2 * index) job image
        .publish (.processed (index + 1)) (transferAll plan clock (index + 1) rest job)

end Job

/-- Transfer every candidate. -/
def download (m : Mover) (files : FileTree) (clock : Clock) :
    Dialogue Unit Progress (Report × Mover × FileTree) :=
  match m.plan? with
  | none => .publish (.selected 0) (.done (.completed [], m, files))
  | some plan =>
    let total := m.candidates.length
    .publish (.selected total)
      ((Job.transferAll plan clock 0 m.candidates ⟨m, files, []⟩).bind fun (stopped, job) =>
        let report := if stopped then .stopped job.written total else .completed job.written
        .done (report, job.mover, job.files))

/-- Write the counters if they have changed. -/
def saveSequences (m : Mover) (t : FileTree) : Except IntakeError Unit × Mover × FileTree :=
  let (result, sequences, t) := m.sequences.save t
  (result, { m with sequences }, t)

end Mover

end PhotoIntake
