import PhotoIntake.Download.Transfer
import PhotoIntake.Naming.Builtin

/-!
# Configuration

What the user sets once for all runs.  Empty paths and texts stand for a choice made elsewhere.
-/

namespace PhotoIntake

namespace Config

/-- Where workers run: in processes of their own, or in threads of this one. -/
inductive Hosting where
  | process
  | thread
  deriving DecidableEq

namespace Hosting

/-- The name of the choice. -/
def title : Hosting → String
  | process => "process"
  | thread => "thread"

/-- The choice with the given name. -/
def ofTitle? (s : String) : Option Hosting :=
  [process, thread].find? (·.title == s)

end Hosting

/-- How images are downloaded. -/
structure Download where
  destination : Path
  withSubfolders : Bool
  imageTemplate : String
  destinationTemplate : String
  label : String
  mode : TransferMode
  skipsDownloaded : Bool
  deriving DecidableEq

/-- How workers are run.  The program is the one that hosts a worker process. -/
structure Workers where
  hosting : Hosting
  pollMilliseconds : Nat
  stopMilliseconds : Nat
  program : Path
  deriving DecidableEq

namespace Workers

/-- The time between two looks for work, which is never nothing. -/
def pollInterval (w : Workers) : Nat :=
  max w.pollMilliseconds 1

end Workers

/-- The files that outlive a run. -/
structure Storage where
  sequences : Path
  templates : Path
  history : Path
  deriving DecidableEq

/-- What is logged, and where. -/
structure Logging where
  level : String
  toFile : Bool
  file : Path
  deriving DecidableEq

end Config

/-- All settings. -/
structure Config where
  download : Config.Download
  batchSize : Nat
  workers : Config.Workers
  metadataProgram : Path
  storage : Config.Storage
  logging : Config.Logging
  deriving DecidableEq

namespace Config

/-- The settings where nothing is set. -/
def standard : Config where
  download :=
    { destination := ⟨""⟩
      withSubfolders := true
      imageTemplate := Naming.standardImageKey
      destinationTemplate := Naming.standardDestinationKey
      label := ""
      mode := .copy
      skipsDownloaded := true }
  batchSize := 500
  workers :=
    { hosting := .process
      pollMilliseconds := 10
      stopMilliseconds := 250
      program := ⟨""⟩ }
  metadataProgram := ⟨"exiftool"⟩
  storage := ⟨⟨""⟩, ⟨""⟩, ⟨""⟩⟩
  logging := ⟨"info", false, ⟨"./photo_download.log"⟩⟩

instance : Inhabited Config := ⟨standard⟩

end Config

end PhotoIntake
