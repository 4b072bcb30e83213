import PhotoIntake.History.Store

/-!
# Histories in a database

The record of earlier downloads is a table of a database, with a row for each file.  The database is
not part of this library: it is known by the statements that are made on it.  A statement may fail,
and it changes the database.

The table keeps a size of 64 bits in a column of signed numbers, and the time of a download as a
text.  Its key is the name, the time of the last change and the size of a file.
-/

namespace PhotoIntake

namespace History

/-- How a table keeps a size. -/
def signed (size : Nat) : Int64 :=
  (UInt64.ofNat size).toInt64

/-- The columns of a row.  Only the time of the download may be null. -/
structure Columns where
  name : String
  modified : Float
  size : Int64
  target : String
  time : Option String

/-- The columns of a record. -/
def Columns.ofRecord (r : Record) : Columns :=
  ⟨r.identity.name, r.identity.modified, signed r.identity.size, r.target,
    some (r.time.text .space)⟩

/-- What the columns of a found row tell.  A text that is no time tells none. -/
def ofColumns (target : String) (time : Option String) : Download :=
  ⟨target, time.bind (Calendar.DateTime.read? .space)⟩

end History

open History (Columns)

/-- A statement on a database: its result, and the database after it. -/
abbrev Statement (σ α : Type) := ExceptT HistoryError (StateM σ) α

/-- The result of a statement on a database and the database after it. -/
def Statement.runOn {σ α : Type} (statement : Statement σ α) (d : σ) :
    Except HistoryError α × σ :=
  StateT.run (ExceptT.run statement) d

/-- A database with the statements that are made on it. -/
structure Database (σ : Type) where
  /-- Leave the open database and open the one in a file, which is created if it is missing. -/
  connect (p : Path) (t : FileTree) : Statement σ Unit
  /-- Leave the open database and open a new one in memory. -/
  connectInMemory : Statement σ Unit
  /-- Create the table with its key unless it is there. -/
  createTable : Statement σ Unit
  /-- Create the index of the targets unless it is there. -/
  createIndex : Statement σ Unit
  /-- Remove the table if it is there. -/
  dropTable : Statement σ Unit
  /-- Give back the room that is not used. -/
  vacuum : Statement σ Unit
  /-- Begin a transaction. -/
  begin : Statement σ Unit
  /-- End a transaction and keep its changes. -/
  commit : Statement σ Unit
  /-- End a transaction and undo its changes. -/
  rollback : Statement σ Unit
  /-- Prepare the insertion of rows. -/
  prepareInsert : Statement σ Unit
  /-- Insert a row, in place of the one with its key if there is one. -/
  insert (c : Columns) : Statement σ Unit
  /-- Select the target and the time of the row with a key. -/
  select (name : String) (size : Int64) (modified : Float) :
    Statement σ (Option (String × Option String))
  /-- Count the rows. -/
  count : Statement σ Int64

namespace Database

variable {σ : Type} (db : Database σ)

/-- Create what a store needs unless it is there. -/
def createSchema : Statement σ Unit := do
  db.createTable
  db.createIndex

/-- Open a new store in memory. -/
def openInMemory : Statement σ Unit := do
  db.connectInMemory
  db.createSchema

/-- Open the store in a file, whose folder is created if it is missing. -/
def openFile (p : Path) (t : FileTree) (d : σ) : Except IntakeError Unit × FileTree × σ :=
  match (HistoryStore.createFolderAround p).runOn t with
  | (.error e, t) => (.error (.files e), t, d)
  | (.ok (), t) =>
    let opened : Statement σ Unit := do
      db.connect p t
      db.createSchema
    let (result, d) := opened.runOn d
    (result.mapError .history, t, d)

/-- Forget all downloads. -/
def reset : Statement σ Unit := do
  db.dropTable
  db.vacuum
  db.createSchema

/-- The number of downloads, as a word without a sign. -/
def countRows : Statement σ UInt64 := do
  return (← db.count).toUInt64

/-- What is known of the file with the given identity. -/
def lookup (id : FileIdentity) : Statement σ (Option History.Download) := do
  let row ← db.select id.name (History.signed id.size) id.modified
  return row.map fun (target, time) => History.ofColumns target time

/-- Insert the rows of all records. -/
def insertAll (records : List History.Record) : Statement σ Unit := do
  db.prepareInsert
  records.forM fun r => db.insert (Columns.ofRecord r)

/-- Undo a transaction; if that fails too, nothing is said of it. -/
def abandon : Statement σ Unit :=
  tryCatch db.rollback fun _ => pure ()

/-- Record downloads in one transaction, and tell their number. -/
def record (records : List History.Record) : Statement σ Nat := do
  db.begin
  tryCatch (do db.insertAll records; db.commit) fun e => do
    db.abandon
    throw e
  return records.length

end Database

end PhotoIntake
