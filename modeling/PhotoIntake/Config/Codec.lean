import PhotoIntake.Config.Basic
import PhotoIntake.Toml.Reader
import PhotoIntake.Toml.Section

/-!
# Configurations in TOML

Each group of settings is a section.  What is left out has its standard value, and what is no
setting is skipped.
-/

namespace PhotoIntake.Config

open Toml (Given Section)

/-- The path of a text. -/
def pathOf? (v : Toml) : Option Path :=
  v.text?.map Path.mk

/-- The transfer mode of its name. -/
def modeOf? (v : Toml) : Option TransferMode :=
  v.case?.bind TransferMode.ofTitle?

/-- The hosting of its name. -/
def hostingOf? (v : Toml) : Option Hosting :=
  v.case?.bind Hosting.ofTitle?

/-- The section of the download settings. -/
def Download.toSection (d : Download) : Section :=
  ⟨"download", [
    ("destination", .text d.destination.text),
    ("include_subdirs", .bool d.withSubfolders),
    ("image_template", .text d.imageTemplate),
    ("destination_template", .text d.destinationTemplate),
    ("session", .text d.label),
    ("transfer", .text d.mode.title),
    ("skip_previously_downloaded", .bool d.skipsDownloaded)]⟩

/-- The download settings of a section. -/
def Download.ofToml? (v : Toml) : Option Download := do
  let d := standard.download
  let g ← Given.ofToml? (d.toSection.fields.map (·.1)) v
  return {
    destination := ← g.get "destination" pathOf? d.destination
    withSubfolders := ← g.get "include_subdirs" Toml.bool? d.withSubfolders
    imageTemplate := ← g.get "image_template" Toml.text? d.imageTemplate
    destinationTemplate := ← g.get "destination_template" Toml.text? d.destinationTemplate
    label := ← g.get "session" Toml.text? d.label
    mode := ← g.get "transfer" modeOf? d.mode
    skipsDownloaded := ← g.get "skip_previously_downloaded" Toml.bool? d.skipsDownloaded }

/-- The section of the scanner. -/
def batchSection (size : Nat) : Section :=
  ⟨"scanner", [("batch_size", .count size)]⟩

/-- The batch size of a section. -/
def batchOfToml? (v : Toml) : Option Nat := do
  let g ← Given.ofToml? ["batch_size"] v
  g.get "batch_size" Toml.count? standard.batchSize

/-- The section of the worker settings. -/
def Workers.toSection (w : Workers) : Section :=
  ⟨"workers", [
    ("hosting", .text w.hosting.title),
    ("poll_interval_ms", .count w.pollMilliseconds),
    ("stop_timeout_ms", .count w.stopMilliseconds),
    ("program", .text w.program.text)]⟩

/-- The worker settings of a section. -/
def Workers.ofToml? (v : Toml) : Option Workers := do
  let w := standard.workers
  let g ← Given.ofToml? (w.toSection.fields.map (·.1)) v
  return {
    hosting := ← g.get "hosting" hostingOf? w.hosting
    pollMilliseconds := ← g.get "poll_interval_ms" Toml.count? w.pollMilliseconds
    stopMilliseconds := ← g.get "stop_timeout_ms" Toml.count? w.stopMilliseconds
    program := ← g.get "program" pathOf? w.program }

/-- The section of the metadata program. -/
def programSection (program : Path) : Section :=
  ⟨"exiftool", [("program", .text program.text)]⟩

/-- The metadata program of a section. -/
def programOfToml? (v : Toml) : Option Path := do
  let g ← Given.ofToml? ["program"] v
  g.get "program" pathOf? standard.metadataProgram

/-- The section of the files that outlive a run. -/
def Storage.toSection (s : Storage) : Section :=
  ⟨"storage", [
    ("sequences_file", .text s.sequences.text),
    ("templates_file", .text s.templates.text),
    ("downloaded_db", .text s.history.text)]⟩

/-- The files that outlive a run, of a section. -/
def Storage.ofToml? (v : Toml) : Option Storage := do
  let s := standard.storage
  let g ← Given.ofToml? (s.toSection.fields.map (·.1)) v
  return {
    sequences := ← g.get "sequences_file" pathOf? s.sequences
    templates := ← g.get "templates_file" pathOf? s.templates
    history := ← g.get "downloaded_db" pathOf? s.history }

/-- The section of the logging settings. -/
def Logging.toSection (l : Logging) : Section :=
  ⟨"logging", [
    ("level", .text l.level),
    ("log_to_file", .bool l.toFile),
    ("log_file", .text l.file.text)]⟩

/-- The logging settings of a section. -/
def Logging.ofToml? (v : Toml) : Option Logging := do
  let l := standard.logging
  let g ← Given.ofToml? (l.toSection.fields.map (·.1)) v
  return {
    level := ← g.get "level" Toml.text? l.level
    toFile := ← g.get "log_to_file" Toml.bool? l.toFile
    file := ← g.get "log_file" pathOf? l.file }

/-- The sections of a configuration. -/
def toSections (c : Config) : List Section :=
  [c.download.toSection, batchSection c.batchSize, c.workers.toSection,
    programSection c.metadataProgram, c.storage.toSection, c.logging.toSection]

/-- The text of a configuration; none if some number cannot be written. -/
def write? (c : Config) : Option String :=
  Section.write? c.toSections

/-- The configuration of a document. -/
def ofToml? (v : Toml) : Option Config := do
  let g ← Given.ofToml? (standard.toSections.map (·.name)) v
  return {
    download := ← g.get "download" Download.ofToml? standard.download
    batchSize := ← g.get "scanner" batchOfToml? standard.batchSize
    workers := ← g.get "workers" Workers.ofToml? standard.workers
    metadataProgram := ← g.get "exiftool" programOfToml? standard.metadataProgram
    storage := ← g.get "storage" Storage.ofToml? standard.storage
    logging := ← g.get "logging" Logging.ofToml? standard.logging }

/-- The configuration that a text says. -/
def read? (s : String) : Option Config :=
  (Toml.read? s).bind ofToml?

end PhotoIntake.Config
