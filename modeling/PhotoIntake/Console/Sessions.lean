import PhotoIntake.Console.Desk
import PhotoIntake.Console.Invocation
import PhotoIntake.Naming.Collection

/-!
# Commands that run a session

A session is prepared from the configuration and from what its command asks otherwise.  It is
ended before its outcome is told.
-/

namespace PhotoIntake.Console

open CommandAction

variable {ω : Type}

namespace SessionRequest

/-- The configuration with what is asked otherwise. -/
def override (r : SessionRequest) (c : Config) : Config :=
  let download := { c.download with
    destination := r.destination.getD c.download.destination
    imageTemplate := r.imageTemplate.getD c.download.imageTemplate
    destinationTemplate := r.destinationTemplate.getD c.download.destinationTemplate
    label := r.label.getD c.download.label
    withSubfolders := r.withSubfolders.getD c.download.withSubfolders
    skipsDownloaded := c.download.skipsDownloaded && !r.includesDownloaded }
  let hosting := if r.inThreads then .thread else c.workers.hosting
  { c with download, workers := { c.workers with hosting } }

end SessionRequest

/-- The options of a session, with its templates looked up by their keys. -/
def optionsOf (c : Config) (source : Path) (templates : Naming.Collection) :
    Except IntakeError Session.Options := do
  return {
    source
    destination := c.download.destination
    withSubfolders := c.download.withSubfolders
    mode := c.download.mode
    imageTemplate := ← templates.require .image c.download.imageTemplate
    destinationTemplate := ← templates.require .destination c.download.destinationTemplate
    label := c.download.label
    skipsDownloaded := c.download.skipsDownloaded }

/-- The options of a session whose source is there and whose destination is known. -/
def sessionOptions (s : Setting ω) (c : Config) (source : Path) :
    CommandAction ω Session.Options := do
  let t ← files
  if !t.isFolder source then throw (.noSource source)
  if c.download.destination.text.isEmpty then throw .noDestination
  let templates := Naming.Collection.load (s.environment.templatesFile c.storage) t
  match optionsOf c source templates with
  | .ok o => return o
  | .error e => throw (.intake e)

/-- The store of earlier downloads; a session runs without one that cannot be opened. -/
def openStore (file : Path) : CommandAction ω (Option HistoryStore) := do
  let (result, files) := HistoryStore.openFile file (← files)
  modify fun d => { d with files }
  match result with
  | .ok store => return some store
  | .error _ => return none

/-- The workers can be started: in threads, in processes of this program, or in those of another
one. -/
def canStartWorkers (s : Setting ω) (w : Config.Workers) : Bool :=
  w.hosting == .thread || w.program.text.isEmpty || s.hostsWorkers w.program

/-- Start a session. -/
def startSession (s : Setting ω) (c : Config) : CommandAction ω (Session (Metadata.Client ω)) := do
  let store ← openStore (s.environment.historyFile c.storage)
  if !canStartWorkers s c.workers then throw .cannotStartWorkers
  let d ← get
  let reader := Metadata.Client.reader c.metadataProgram (s.tool c.metadataProgram)
  let sequences := Sequences.ofFile (s.environment.sequencesFile c.storage)
  return Session.start d.files store c.batchSize reader (Metadata.Client.ofWorld d.world)
    (Mover.ofSequences sequences c.download.mode)

/-- Run a task of a session to its end, and end the session. -/
def runSession {α : Type} (task : Session (Metadata.Client ω) → Dialogue Unit Session.Progress
    (Except IntakeError α × Session (Metadata.Client ω)))
    (session : Session (Metadata.Client ω)) : CommandAction ω α := do
  let ((result, session), _) := (task session).run (fun _ => false) 0
  let session := session.stop
  modify fun d => { d with files := session.files, world := session.readerState.world }
  match result with
  | .ok a => return a
  | .error e => throw (.intake e)

/-- The lines on a download that has begun. -/
def downloadLines (o : Session.Options) : List Line :=
  headline "Photo Download" ++
    [.fact ("Source: " ++ o.source.text), .fact ("Destination: " ++ o.destination.text),
      .fact ("Naming: " ++ o.destinationTemplate.name ++ " / " ++ o.imageTemplate.name), .empty]

/-- The lines on a download that has ended. -/
def summaryLines (s : Session.Summary) : List Line :=
  let skipped := Decimal.text s.skipped ++ " of " ++ Decimal.text s.scanned ++
    " images skipped (previously downloaded)"
  let unsaved := "Sequences could not be saved: numbers may repeat on the next download"
  .finished s.message :: (if 0 < s.skipped then [.fact skipped] else []) ++
    (if s.report.isSome && !s.sequencesSaved then [.warning unsaved] else [])

/-- The lines on a preview. -/
def previewLines (p : Session.PreviewSummary) : List Line :=
  let counts := Decimal.text p.scanned ++ " images found, " ++ Decimal.text p.candidates ++
    " to download"
  let sample := match p.sample with
    | some sample =>
      [Line.fact ("Next name: " ++ sample.name), .fact ("In folder: " ++ sample.folder)]
    | none => [.warning "No image to download"]
  let folders := if p.folders.isEmpty then [] else
    [.empty, .plain "  Destination folders:"] ++ p.folders.map fun f => .plain ("    " ++ f)
  .finished counts :: sample ++ folders

/-- Scan the source and download what is selected. -/
def runDownload (s : Setting ω) (c : Config) (source : Path) : CommandAction ω Unit := do
  let o ← sessionOptions s c source
  print (downloadLines o)
  let summary ← runSession (·.download s.clock o) (← startSession s c)
  print (summaryLines summary)

/-- Show what the next download would do. -/
def runPreview (s : Setting ω) (c : Config) (source : Path) : CommandAction ω Unit := do
  let o ← sessionOptions s c source
  let summary ← runSession (·.preview s.clock o) (← startSession s c)
  print (previewLines summary)

end PhotoIntake.Console
