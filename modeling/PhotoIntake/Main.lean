import PhotoIntake.Console.Elapsed
import PhotoIntake.Console.Run
import PhotoIntake.Console.Usage
import PhotoIntake.Download.Codec
import PhotoIntake.Metadata.Codec
import PhotoIntake.Source.Codec
import PhotoIntake.Worker.Channel
import PhotoIntake.Worker.Hosted
import Std.Time.Zoned

/-!
# Command line

The outer layer of the program.  What a command may look at is taken in from the disk as a file
tree, the command runs on the tree, and what it has changed is put back.  No other program is
started from here, so images are named as if the metadata tool were not installed.
-/

namespace PhotoIntake.Host

open Console (Invocation Command Desk Setting WorkerKind)

/-! ## Taking in and putting back -/

/-- The greatest depth to which folders are taken in. -/
def maxFolders : Nat := 64

/-- The text of a location. -/
def textOf (l : Location) : String :=
  "/" ++ "/".intercalate l

/-- The location that a path names, read off its text alone. -/
def locationOf (working : Location) (p : Path) : Location :=
  p.components.foldl (fun l c => match c with
    | .root => []
    | .current => l
    | .parent => l.dropLast
    | .name s => l ++ [s]) working

/-- The tree with what stands at a location, and with what stands below it down to a depth. -/
def takeIn : Nat → FileTree → Location → IO FileTree
  | depth, t, l => do
    let p := (← IO.currentDir) / textOf l
    match ← p.symlinkMetadata.toBaseIO with
    | .error _ => return t
    | .ok m =>
      let modified := m.modified.sec * 1000000000 + m.modified.nsec.toNat
      match m.type with
      | .dir =>
        let t := t.set l .folder
        match depth with
        | 0 => return t
        | depth + 1 => (← p.readDir).foldlM (fun t e => takeIn depth t (l ++ [e.fileName])) t
      | .file => return t.set l (.file (← IO.FS.readBinFile p) modified)
      | .symlink => return t.set l (.link ⟨(← IO.FS.realPath p).toString⟩)
      | .other => return t

/-- The tree with what a path names, and with the folders around it. -/
def takeInPath (depth : Nat) (t : FileTree) (p : Path) : IO FileTree := do
  let l := locationOf t.working p
  let t ← (List.range l.length).foldlM (fun t n => takeIn 0 t (l.take n)) t
  takeIn depth t l

/-- Put back what is new or changed, and remove what is gone. -/
def putBack (before after : FileTree) : IO Unit := do
  for (l, e) in after.entries do
    if before.get? l != some e then
      match e with
      | .folder => IO.FS.createDirAll (textOf l)
      | .file content _ => IO.FS.writeBinFile (textOf l) content
      | _ => pure ()
  for (l, e) in before.entries do
    if (after.get? l).isNone && !e.isFolder then IO.FS.removeFile (textOf l)

/-! ## Surroundings -/

/-- A path in a variable of the environment. -/
def folderNamed? (name : String) : IO (Option Path) := do
  return ((← IO.getEnv name).filter (!·.isEmpty)).map Path.mk

/-- What the environment says of folders. -/
def environment : IO Environment := do
  return ⟨← folderNamed? "HOME", ← folderNamed? "XDG_CONFIG_HOME", ← folderNamed? "XDG_DATA_HOME"⟩

/-- The moment that the clock of the system shows. -/
def now : IO Calendar.DateTime := do
  let t ← Std.Time.PlainDateTime.now
  let date := Calendar.Date.of? t.date.year.toInt t.date.month.toNat t.date.day.toNat
  let time := Calendar.Time.of? t.time.hour.toNat t.time.minute.toNat t.time.second.toNat
    t.time.nanosecond.toNat
  return ⟨date.getD .epoch, time.getD .midnight⟩

/-- A metadata tool that is not installed. -/
def noTool : Metadata.Program Unit where
  launch _ := .error .missing
  reply w _ := (⟨[], true⟩, w)

/-- What surrounds a command. -/
def setting : IO (Setting Unit) := do
  let t ← now
  return {
    environment := ← environment
    clock := .fixed t t.date
    tool := fun _ => noTool
    hostsWorkers := fun _ => false }

/-- The tree with the working folder and with every configuration file that may be read. -/
def takeInConfigs (e : Environment) (named : Option Path) : IO FileTree := do
  let working := locationOf [] ⟨(← IO.currentDir).toString⟩
  let start : FileTree := { FileTree.empty working with entries := [] }
  let files := [⟨"."⟩] ++ Environment.localFiles ++ e.configFile?.toList ++ named.toList
  files.foldlM (takeInPath 0) start

/-- The files that outlive a run. -/
def storedFiles (e : Environment) (c : Config) : List Path :=
  [e.sequencesFile c.storage, e.templatesFile c.storage, e.historyFile c.storage]

/-! ## Commands -/

/-- The folders that a command may look into. -/
def foldersOf (c : Config) : Command → List Path
  | .download r _ => [r.source, (r.override c).download.destination]
  | .preview r => [r.source, (r.override c).download.destination]
  | .generateConfig (some target) => [target]
  | _ => []

/-- Run an invocation: its lines go to the standard output, its messages to the error output. -/
def run (i : Invocation) : IO UInt32 := do
  let s ← setting
  let t ← takeInConfigs s.environment i.config
  let c := i.configuration s.environment t
  let t ← (storedFiles s.environment c).foldlM (takeInPath 0) t
  let t ← (foldersOf c i.command).foldlM (takeInPath maxFolders) t
  let started ← IO.monoNanosNow
  let (result, d) := i.run s { files := t, world := (), printed := [], logged := [] }
  putBack t d.files
  let elapsed := Console.elapsedText ((← IO.monoNanosNow) - started)
  for line in d.printed do IO.println (line.text elapsed)
  for message in d.logged do IO.eprintln message
  match result with
  | .ok () => return 0
  | .error e =>
    IO.eprintln ("Error: " ++ e.message)
    return 1

/-! ## Workers -/

/-- The folders that requests to a scanner name. -/
def scannedFolders (requests : List (Request Scanner.Command)) : List Path :=
  requests.filterMap fun
    | .run (.scan root _) => some root
    | _ => none

/-- The folders and files that requests to a mover name. -/
def movedPaths (requests : List (Request Mover.Command)) : List Path :=
  requests.flatMap fun
    | .run (.setDestination p) => [p]
    | .run (.setImages images) => images.map (·.source)
    | .run (.addImages images) => images.map (·.source)
    | _ => []

/-- Host a worker: all requests are read from the standard input, then the events are written to
the standard output. -/
def host (i : Invocation) (kind : WorkerKind) : IO UInt32 := do
  let s ← setting
  let t ← takeInConfigs s.environment i.config
  let c := i.configuration s.environment t
  let t ← (storedFiles s.environment c).foldlM (takeInPath 0) t
  let input ← (← IO.getStdin).readBinToEnd
  let tell {E : Type} [Message E] (events : List E) : IO Unit :=
    events.forM fun e => IO.println (Message.line e)
  match kind with
  | .scanner =>
    let requests := Channel.receive input.toList
    let t ← (scannedFolders requests).foldlM (takeInPath maxFolders) t
    let history := match (HistoryStore.openFile (s.environment.historyFile c.storage) t).1 with
      | .ok store => some store.history
      | .error _ => none
    tell ((Hosted.start Scanner.worker ⟨t, history, c.batchSize⟩).close requests).1
  | .loader =>
    let reader := Metadata.Client.reader c.metadataProgram (s.tool c.metadataProgram)
    let worker := Metadata.Loader.worker reader
    tell ((Hosted.start worker (.ofWorld ())).close (Channel.receive input.toList)).1
  | .mover =>
    let requests := Channel.receive input.toList
    let t ← (movedPaths requests).foldlM (takeInPath maxFolders) t
    let mover := Mover.ofSequences (.ofFile (s.environment.sequencesFile c.storage)) c.download.mode
    let (events, h) :=
      (Hosted.start (Mover.worker fun _ => s.clock) (.ofMover mover t)).close requests
    putBack t h.state.files
    tell events
  return 0

end PhotoIntake.Host

/-- The program. -/
def main (args : List String) : IO UInt32 := do
  match PhotoIntake.Console.Invocation.read args with
  | .error e =>
    if e.isWanted then
      e.lines.forM IO.println
      return 0
    else
      e.lines.forM IO.eprintln
      return 2
  | .ok i =>
    match i.command with
    | .worker kind => PhotoIntake.Host.host i kind
    | _ => PhotoIntake.Host.run i
