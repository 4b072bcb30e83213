import PhotoIntake.Config.File
import PhotoIntake.Console.Line
import PhotoIntake.Metadata.Tool
import PhotoIntake.Session.Run

/-!
# What a command works on

A command changes files and the world of the metadata tool, prints lines and logs messages.  It
keeps all of that when it fails half-way.
-/

namespace PhotoIntake.Console

/-- Why a command fails. -/
inductive CommandError where
  | noSource (path : Path)
  | noDestination
  | cannotStartWorkers
  | unknownPolicy (name : String)
  | cannotRemove (path : Path)
  | cannotOpen (path : Path)
  | cannotWrite (cause : FileError)
  | config (cause : ConfigError)
  | intake (cause : IntakeError)
  deriving DecidableEq

namespace CommandError

/-- The message of the error. -/
def message : CommandError → String
  | noSource path => "Source folder not found: " ++ path.text
  | noDestination => "No destination folder: use --destination or set [download] destination"
  | cannotStartWorkers => "Cannot start workers"
  | unknownPolicy name =>
    "Unknown extension case '" ++ name ++
      "': use \"Original Case\", \"UPPERCASE\" or \"lowercase\""
  | cannotRemove path => "Cannot remove " ++ path.text
  | cannotOpen path => "Cannot open " ++ path.text
  | cannotWrite cause => cause.message
  | config cause => cause.message
  | intake cause => cause.message

end CommandError

/-- What surrounds a command: the environment, the clock, the metadata tool that a path means, and
which programs can be started to host workers. -/
structure Setting (ω : Type) where
  environment : Environment
  clock : Clock
  tool : Path → Metadata.Program ω
  hostsWorkers : Path → Bool

/-- What a command finds and leaves. -/
structure Desk (ω : Type) where
  files : FileTree
  world : ω
  printed : List Line
  logged : List String

/-- A part of a command. -/
abbrev CommandAction (ω α : Type) := ExceptT CommandError (StateM (Desk ω)) α

namespace CommandAction

variable {ω α : Type}

/-- The result of an action on a desk and the desk after it. -/
def runOn (action : CommandAction ω α) (d : Desk ω) : Except CommandError α × Desk ω :=
  StateT.run (ExceptT.run action) d

/-- Print lines. -/
def print (lines : List Line) : CommandAction ω Unit :=
  modify fun d => { d with printed := d.printed ++ lines }

/-- Log messages. -/
def log (messages : List String) : CommandAction ω Unit :=
  modify fun d => { d with logged := d.logged ++ messages }

/-- The files as they are. -/
def files : CommandAction ω FileTree := do
  return (← get).files

/-- Do something with the files; a failure is told in other words. -/
def onFiles {ε : Type} (f : FileTree → Except ε α × FileTree) (tell : ε → CommandError) :
    CommandAction ω α := do
  let (result, files) := f (← files)
  modify fun d => { d with files }
  match result with
  | .ok a => return a
  | .error e => throw (tell e)

end CommandAction

end PhotoIntake.Console
