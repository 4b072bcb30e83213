import PhotoIntake.Error
import PhotoIntake.History.Codec

/-!
# Stores

A store keeps a history: in memory, or in a file that is written after every change.  A file that
is empty holds no rows; a file that is anything else but a history is refused.  The history stands
in for the table of a database: whoever asks a store cannot tell one from the other.
-/

namespace PhotoIntake

/-- A history with the file that keeps it, if one does. -/
structure HistoryStore where
  path : Option Path
  history : History
  deriving DecidableEq

namespace HistoryStore

open FileTree

/-- A store in memory. -/
def inMemory : HistoryStore :=
  ⟨none, .empty⟩

/-- The names of a store that is not to be a file. -/
def namesMemory (p : Path) : Bool :=
  p.text == "" || p.text == ":memory:"

/-- Write the history to its file. -/
def write (s : HistoryStore) (t : FileTree) : Except IntakeError Unit × FileTree :=
  match s.path with
  | none => (.ok (), t)
  | some p =>
    match (FileAction.writeFile p s.history.text.toUTF8).runOn t with
    | (.ok (), t) => (.ok (), t)
    | (.error .noRoom, t) => (.error (.history .noRoom), t)
    | (.error _, t) => (.error (.history (.cannotOpen p)), t)

/-- The history that a file holds; none is there before it is written for the first time. -/
def contentOf (t : FileTree) (p : Path) : Except IntakeError (Option History) :=
  match t.contentOf p with
  | .error .missing => .ok none
  | .error _ => .error (.history (.cannotOpen p))
  | .ok content =>
    if content.isEmpty then .ok none
    else
      match (String.fromUTF8? content).bind History.ofText? with
      | some h => .ok (some h)
      | none => .error (.history .notHistory)

/-- Create the folder around a file. -/
def createFolderAround (p : Path) : FileAction Unit :=
  match p.parentComponents? with
  | some [] => pure ()
  | some outer => FileAction.createFolders (Path.ofComponents outer)
  | none => pure ()

/-- Open the store in a file, which is created if it is missing. -/
def openFile (p : Path) (t : FileTree) : Except IntakeError HistoryStore × FileTree :=
  if namesMemory p then (.ok inMemory, t)
  else
    match (createFolderAround p).runOn t with
    | (.error e, t) => (.error (.files e), t)
    | (.ok (), t) =>
      match contentOf t p with
      | .error e => (.error e, t)
      | .ok (some h) => (.ok ⟨some p, h⟩, t)
      | .ok none =>
        let s : HistoryStore := ⟨some p, .empty⟩
        let (result, t) := s.write t
        (result.map fun () => s, t)

/-- The store with another history, written. -/
def replace (s : HistoryStore) (h : History) (t : FileTree) :
    Except IntakeError Unit × HistoryStore × FileTree :=
  match { s with history := h }.write t with
  | (.ok (), t) => (.ok (), { s with history := h }, t)
  | (.error e, t) => (.error e, s, t)

/-- Record downloads, all of them or none. -/
def record (s : HistoryStore) (records : List History.Record) (t : FileTree) :
    Except IntakeError Unit × HistoryStore × FileTree :=
  match s.history.record? records with
  | some h => s.replace h t
  | none => (.error (.history .noModificationTime), s, t)

/-- Forget all downloads. -/
def reset (s : HistoryStore) (t : FileTree) : Except IntakeError Unit × HistoryStore × FileTree :=
  s.replace .empty t

end HistoryStore

end PhotoIntake
