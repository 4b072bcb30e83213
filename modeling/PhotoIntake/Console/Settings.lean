import PhotoIntake.Console.Desk

/-!
# Commands on the configuration
-/

namespace PhotoIntake.Console

open CommandAction

variable {ω : Type}

/-- Write the commented configuration: to a file, or to its own place unless it is there. -/
def makeConfig (s : Setting ω) (target : Option Path) : CommandAction ω Unit := do
  let p ← match target with
    | some p =>
      onFiles (FileAction.writeFile p Config.exampleText.toUTF8).runOn .cannotWrite
      pure p
    | none => onFiles (Config.initialise s.environment) .config
  log ["Configuration file: " ++ p.text, "Edit this file to customize the download settings."]

/-- A message on a setting that is a text. -/
def textSetting (name value : String) : String :=
  "  " ++ name ++ " = \"" ++ value ++ "\""

/-- A message on a setting that is a word or a number. -/
def bareSetting (name value : String) : String :=
  "  " ++ name ++ " = " ++ value

/-- A truth value in a message. -/
def truthText : Bool → String
  | true => "true"
  | false => "false"

/-- The transfer mode in a message. -/
def modeText : TransferMode → String
  | .copy => "Copy"
  | .move => "Move"

/-- The hosting in a message. -/
def hostingText : Config.Hosting → String
  | .process => "Process"
  | .thread => "Thread"

/-- The messages on all settings. -/
def settingMessages (e : Environment) (c : Config) : List String :=
  ["", "Current Configuration:", "----------------------", "[download]",
    textSetting "destination" c.download.destination.text,
    bareSetting "include_subdirs" (truthText c.download.withSubfolders),
    textSetting "image_template" c.download.imageTemplate,
    textSetting "destination_template" c.download.destinationTemplate,
    textSetting "session" c.download.label,
    bareSetting "transfer" (modeText c.download.mode),
    bareSetting "skip_previously_downloaded" (truthText c.download.skipsDownloaded),
    "", "[scanner]",
    bareSetting "batch_size" (Decimal.text c.batchSize),
    "", "[workers]",
    bareSetting "hosting" (hostingText c.workers.hosting),
    bareSetting "poll_interval_ms" (Decimal.text c.workers.pollMilliseconds),
    bareSetting "stop_timeout_ms" (Decimal.text c.workers.stopMilliseconds),
    "", "[exiftool]",
    textSetting "program" c.metadataProgram.text,
    "", "[storage]",
    textSetting "sequences_file" (e.sequencesFile c.storage).text,
    textSetting "templates_file" (e.templatesFile c.storage).text,
    textSetting "downloaded_db" (e.historyFile c.storage).text,
    "", "[logging]",
    textSetting "level" c.logging.level,
    bareSetting "log_to_file" (truthText c.logging.toFile),
    textSetting "log_file" c.logging.file.text]

/-- Log the settings, and the file that they come from. -/
def logConfig (s : Setting ω) (c : Config) : CommandAction ω Unit := do
  let t ← files
  let p := s.environment.active t
  let absent := if t.isThere p then [] else ["(Using default settings - no config file found)"]
  log (["Configuration file: " ++ p.text] ++ absent ++ settingMessages s.environment c)

end PhotoIntake.Console
