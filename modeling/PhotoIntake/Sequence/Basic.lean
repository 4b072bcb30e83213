import PhotoIntake.Error
import PhotoIntake.FileTree.Action
import PhotoIntake.Json.Reader
import PhotoIntake.Json.Writer
import PhotoIntake.Naming.Rendering
import PhotoIntake.Sequence.Daily

/-!
# Sequences

Three counters number the images: those of the day, those of all runs, and those of this run.  The
first two are durable.  They are read from their file when first asked for, and written back when
they have changed since.
-/

namespace PhotoIntake

namespace Sequence

/-- The counters that outlive a run. -/
structure Durable where
  daily : Daily
  storedNumber : Nat
  deriving DecidableEq

namespace Durable

/-- The counters where none were stored. -/
def first (today : Calendar.Date) : Durable :=
  ⟨⟨today, 0⟩, 1⟩

/-- The written form of the counters. -/
def toJson (d : Durable) : Json :=
  .object [("downloadsToday", d.daily.toJson), ("storedNumber", Json.ofNat d.storedNumber)]

/-- The counters of a record. -/
def ofJson? (v : Json) : Option Durable := do
  let r ← Json.Record.ofJson? ["downloadsToday", "storedNumber"] v
  let daily ← r.required "downloadsToday" Daily.ofJson?
  let storedNumber ← r.required "storedNumber" (Json.natBelow? (Decimal.wordBound 32))
  return { daily, storedNumber }

/-- The counters kept in a file, if it can be read. -/
def read? (path : Path) (t : FileTree) : Option Durable :=
  ((t.textOf? path).bind Json.read?).bind ofJson?

/-- The text of a file that keeps the counters. -/
def fileText (d : Durable) : String :=
  Json.writeIndented d.toJson

/-- Write the counters to a file. -/
def write (d : Durable) (path : Path) : FileAction Unit := do
  match path.parentComponents? with
  | some outer => FileAction.createFolders (Path.ofComponents outer)
  | none => pure ()
  FileAction.writeFile path d.fileText.toUTF8

end Durable

end Sequence

/-- The counters of a run and the file that keeps the durable ones. -/
structure Sequences where
  path : Path
  durable : Option Sequence.Durable
  sessionNumber : Nat
  isDirty : Bool
  deriving DecidableEq

namespace Sequences

open Sequence

/-- Fresh sequences on a file, which is not read yet. -/
def ofFile (path : Path) : Sequences :=
  { path, durable := none, sessionNumber := 1, isDirty := false }

/-- The durable counters read from the file, or the first ones. -/
def load (s : Sequences) (t : FileTree) (today : Calendar.Date) : Sequences :=
  { s with durable := some ((Durable.read? s.path t).getD (.first today)), isDirty := false }

/-- The durable counters, and the sequences after they were asked for. -/
def loaded (s : Sequences) (t : FileTree) (today : Calendar.Date) : Durable × Sequences :=
  match s.durable with
  | some d => (d, s)
  | none =>
    let d := (Durable.read? s.path t).getD (.first today)
    (d, { s with durable := some d, isDirty := false })

/-- The images of the day; the day that has begun since is a change. -/
def downloadsToday (s : Sequences) (t : FileTree) (today : Calendar.Date) : Nat × Sequences :=
  let (d, s) := s.loaded t today
  let daily := d.daily.on today
  (daily.count,
    { s with durable := some { d with daily }, isDirty := s.isDirty || daily != d.daily })

/-- The number of the next image of all runs. -/
def storedNumber (s : Sequences) (t : FileTree) (today : Calendar.Date) : Nat × Sequences :=
  let (d, s) := s.loaded t today
  (d.storedNumber, s)

/-- The letters of the next image of this run. -/
def letters (s : Sequences) : String :=
  Sequence.letters s.sessionNumber

/-- The values of all counters. -/
def snapshot (s : Sequences) (t : FileTree) (today : Calendar.Date) : Counters × Sequences :=
  let (daily, s) := s.downloadsToday t today
  let (stored, s) := s.storedNumber t today
  (⟨daily, stored, s.sessionNumber⟩, s)

/-- One image more on every counter. -/
def increment (s : Sequences) (t : FileTree) (today : Calendar.Date) : Sequences :=
  let (d, s) := s.loaded t today
  { s with
    durable := some { daily := d.daily.increment today, storedNumber := d.storedNumber + 1 }
    sessionNumber := s.sessionNumber + 1
    isDirty := true }

/-- Write the durable counters if they have changed. -/
def save (s : Sequences) (t : FileTree) : Except IntakeError Unit × Sequences × FileTree :=
  match s.durable, s.isDirty with
  | some d, true =>
    match (d.write s.path).runOn t with
    | (.ok (), t) => (.ok (), { s with isDirty := false }, t)
    | (.error cause, t) => (.error (.sequencesSave s.path cause), s, t)
  | _, _ => (.ok (), s, t)

/-- One line about the counters. -/
def shown (s : Sequences) : String :=
  let run := "Session: " ++ Decimal.text s.sessionNumber ++ ", Letters: " ++ s.letters
  match s.durable with
  | some d =>
    "Today: " ++ Decimal.text d.daily.count ++ " on " ++ d.daily.date.text ++ ", Stored: " ++
      Decimal.text d.storedNumber ++ ", " ++ run
  | none => "Not loaded, " ++ run

end Sequences

end PhotoIntake
