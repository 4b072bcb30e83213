import PhotoIntake.Config.Codec
import PhotoIntake.Config.Example
import PhotoIntake.Config.Location
import PhotoIntake.Error

/-!
# Configuration files

Reading, writing and making a configuration file, and why that fails.
-/

namespace PhotoIntake

/-- Why a configuration cannot be read or written. -/
inductive ConfigError where
  | missing (path : Path)
  | unreadable (path : Path) (cause : FileError)
  | notText (path : Path)
  | malformed (path : Path)
  | numberTooGreat
  | unwritable (path : Path) (cause : FileError)
  | noFolder
  deriving DecidableEq

namespace ConfigError

/-- The message of the error. -/
def message : ConfigError → String
  | missing path => "Configuration file not found: " ++ path.text
  | unreadable path cause =>
    "Failed to read config file '" ++ path.text ++ "': " ++ cause.message
  | notText path =>
    "Failed to read config file '" ++ path.text ++ "': stream did not contain valid UTF-8"
  | malformed path => "Failed to parse config file '" ++ path.text ++ "': invalid document"
  | numberTooGreat => "Failed to serialize configuration: out-of-range value for u64 type"
  | unwritable path cause =>
    "Failed to write config file '" ++ path.text ++ "': " ++ cause.message
  | noFolder => "Could not determine configuration directory"

end ConfigError

namespace Config

/-- The configuration that a file says. -/
def load (p : Path) (t : FileTree) : Except ConfigError Config :=
  if !t.isThere p then .error (.missing p)
  else
    match t.contentOf p with
    | .error cause => .error (.unreadable p cause)
    | .ok content =>
      match String.fromUTF8? content with
      | none => .error (.notText p)
      | some s =>
        match read? s with
        | some c => .ok c
        | none => .error (.malformed p)

/-- The configuration that is found; the standard one if there is no file. -/
def loadFound (e : Environment) (t : FileTree) : Except ConfigError Config :=
  match e.found? t with
  | some p => load p t
  | none => .ok standard

/-- Write a configuration to a file. -/
def save (c : Config) (p : Path) (t : FileTree) : Except ConfigError Unit × FileTree :=
  match c.write? with
  | none => (.error .numberTooGreat, t)
  | some s =>
    match (FileAction.writeFile p s.toUTF8).runOn t with
    | (.ok (), t) => (.ok (), t)
    | (.error cause, t) => (.error (.unwritable p cause), t)

/-- Create a folder unless it is there. -/
def ensureFolder (p : Path) : FileAction Unit := do
  if (← get).isThere p then pure () else FileAction.createFolders p

/-- Write the commented configuration to a file unless it is there. -/
def ensureExample (p : Path) : FileAction Unit := do
  if (← get).isThere p then pure () else FileAction.writeFile p exampleText.toUTF8

/-- Make the configuration file in its folder unless it is there. -/
def initialise (e : Environment) (t : FileTree) : Except ConfigError Path × FileTree :=
  match e.configFolder? with
  | none => (.error .noFolder, t)
  | some folder =>
    match (ensureFolder folder).runOn t with
    | (.error cause, t) => (.error (.unwritable folder cause), t)
    | (.ok (), t) =>
      let p := folder.descend [Environment.configName]
      match (ensureExample p).runOn t with
      | (.error cause, t) => (.error (.unwritable p cause), t)
      | (.ok (), t) => (.ok p, t)

end Config

end PhotoIntake
