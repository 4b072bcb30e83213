import PhotoIntake.Console.Sessions
import PhotoIntake.Console.Settings
import PhotoIntake.Console.Stores
import PhotoIntake.Console.Templates

/-!
# Running a command
-/

namespace PhotoIntake.Console

open CommandAction

variable {ω : Type}

/-- The configuration with which an invocation runs: that of the file it names, or the one that is
found.  A configuration that cannot be read is the standard one. -/
def Invocation.configuration (i : Invocation) (e : Environment) (t : FileTree) : Config :=
  let loaded := match i.config with
    | some p => Config.load p t
    | none => Config.loadFound e t
  let c := match loaded with
    | .ok c => c
    | .error _ => Config.standard
  { c with logging := { c.logging with level := i.logLevel.getD c.logging.level } }

/-- Run a command.  A worker is hosted by what surrounds the command. -/
def Command.run (s : Setting ω) (c : Config) : Command → CommandAction ω Unit
  | .download r moves =>
    let c := r.override c
    let mode := if moves then .move else c.download.mode
    runDownload s { c with download := { c.download with mode } } r.source
  | .preview r => runPreview s (r.override c) r.source
  | .tokens purpose => print (fieldLines purpose)
  | .templates purpose => do
    let templates := Naming.Collection.load (s.environment.templatesFile c.storage) (← files)
    print (collectionLines templates purpose)
  | .editTemplates r => r.run (s.environment.templatesFile c.storage)
  | .sequences true => resetSequences (s.environment.sequencesFile c.storage)
  | .sequences false => showSequences s (s.environment.sequencesFile c.storage)
  | .downloaded true => resetHistory (s.environment.historyFile c.storage)
  | .downloaded false => showHistory (s.environment.historyFile c.storage)
  | .generateConfig target => makeConfig s target
  | .showConfig => logConfig s c
  | .worker kind => log ["Hosting " ++ kind.title ++ " worker"]

/-- Run an invocation on a desk. -/
def Invocation.run (s : Setting ω) (i : Invocation) (d : Desk ω) :
    Except CommandError Unit × Desk ω :=
  (i.command.run s (i.configuration s.environment d.files)).runOn d

end PhotoIntake.Console
