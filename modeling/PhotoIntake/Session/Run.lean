import PhotoIntake.History.Store
import PhotoIntake.Metadata.Loader
import PhotoIntake.Session.Gathering

/-!
# Running a session

A session keeps its mover, its reader of metadata and its store over several runs.  A download is
recorded in the store, by what the sources were recognised by before it, and the counters are
written.  Without a store nothing is skipped and nothing recorded.
-/

namespace PhotoIntake

/-- A session under way, with the files that it works on. -/
structure Session (σ : Type) where
  files : FileTree
  store : Option HistoryStore
  batchSize : Nat
  reader : Metadata.Reader σ
  readerState : σ
  mover : Mover

namespace Session

variable {σ : Type}

/-- Start a session. -/
def start (files : FileTree) (store : Option HistoryStore) (batchSize : Nat)
    (reader : Metadata.Reader σ) (readerState : σ) (mover : Mover) : Session σ :=
  { files, store, batchSize, reader, mover, readerState := (reader.start readerState).2 }

/-- End a session: the counters are written, whatever comes of it. -/
def stop (s : Session σ) : Session σ :=
  let (_, mover, files) := s.mover.saveSequences s.files
  { s with mover, files, readerState := s.reader.finish s.readerState }

/-- The event of a session for one of its loader. -/
def eventOf : Metadata.Loader.Event → Event
  | .captured key date => .captured key date
  | .thumbnail _ _ => .other

/-- Ask the loader for the dates of some images: the events that come of it. -/
def loadDates (s : Session σ) (keys : List ImageKey) : List Event × Session σ :=
  let (events, readerState) := keys.foldl (fun (events, readerState) key =>
    let (more, readerState) := Metadata.Loader.load s.reader readerState (.loadDate key)
    (events ++ more.map eventOf, readerState)) ([], s.readerState)
  (events, { s with readerState })

/-- The images of a source with the dates of those that are selected. -/
def gather (s : Session σ) (o : Options) :
    Dialogue Unit Progress (Outcome (List Image) × Session σ) := do
  let scan := Scan.whole s.files (s.store.map (·.history)) o.source o.withSubfolders s.batchSize
  let (found, later) ← gatherImages o (scanEvents scan) []
  match found with
  | .complete images =>
    let keys := wantedKeys images
    let (events, s) := s.loadDates keys
    let (dated, _) ← .publish (.dated 0 keys.length)
      (gatherDates keys.length (later ++ events) 0 images)
    return (dated, s)
  | outcome => return (outcome, s)

/-- The session with its mover told what to do. -/
def withTask (s : Session σ) (o : Options) (images : List Image) : Session σ :=
  let mover := { s.mover with
    destination := some o.destination
    mode := o.mode
    imageTemplate := some o.imageTemplate
    destinationTemplate := some o.destinationTemplate }
  { s with mover := mover.withImages images }

/-- What the sources of images are recognised by. -/
def identities (t : FileTree) (images : List Image) : List (ImageKey × FileIdentity) :=
  images.filterMap fun image =>
    match FileIdentity.ofPath t image.source with
    | .ok id => some (image.key, id)
    | .error _ => none

/-- The records of a report. -/
def recordsOf (ids : List (ImageKey × FileIdentity)) (report : Report) : List History.Record :=
  report.images.filterMap fun d =>
    (ids.lookup d.key).map fun id => ⟨id, d.destination.text, d.time⟩

/-- Record downloads: how many were recorded. -/
def record (s : Session σ) (records : List History.Record) : Nat × Session σ :=
  match s.store with
  | none => (0, s)
  | some store =>
    if records.isEmpty then (0, s)
    else
      match store.record records s.files with
      | (.ok (), store, files) => (records.length, { s with store := some store, files })
      | (.error _, store, files) => (0, { s with store := some store, files })

/-- Why a session gives up when no event comes. -/
def silence : IntakeError :=
  .worker "no answer from workers for 60 s"

/-- Gather and download. -/
def download (s : Session σ) (clock : Clock) (o : Options) :
    Dialogue Unit Progress (Except IntakeError Summary × Session σ) := do
  let (gathered, s) ← s.gather o
  match gathered with
  | .cancelled => return (.ok .cancelled, s)
  | .silent => return (.error silence, s)
  | .complete images =>
    let s := s.withTask o images
    let ids := identities s.files s.mover.candidates
    let (report, mover, files) ←
      (s.mover.download s.files clock).translate (fun _ => ()) Progress.ofDownload
    let (recorded, s) := { s with mover, files }.record (recordsOf ids report)
    let (saved, mover, files) := s.mover.saveSequences s.files
    let summary : Summary :=
      { scanned := images.length
        skipped := (images.filter fun image => !image.isSelected).length
        report := some report
        recorded := recorded
        sequencesSaved := match saved with
          | .ok () => true
          | .error _ => false }
    return (.ok summary, { s with mover, files })

/-- Gather, and preview what a download would do. -/
def preview (s : Session σ) (clock : Clock) (o : Options) :
    Dialogue Unit Progress (Except IntakeError PreviewSummary × Session σ) := do
  let (gathered, s) ← s.gather o
  match gathered with
  | .cancelled => return (.ok .cancelled, s)
  | .silent => return (.error silence, s)
  | .complete images =>
    let s := s.withTask o images
    let candidates := s.mover.candidates
    let (folders, mover) := s.mover.folders s.files clock
    let (sample, mover) :=
      match candidates with
      | [] => (none, mover)
      | first :: _ => mover.preview s.files clock first
    let summary : PreviewSummary := ⟨images.length, candidates.length, sample, folders⟩
    return (.ok summary, { s with mover })

end Session

end PhotoIntake
