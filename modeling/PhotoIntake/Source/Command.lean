import PhotoIntake.Source.Scan
import PhotoIntake.Worker.Loop

/-!
# The scanner as a worker

The commands that a scanner takes and the events that it publishes: the batches of a scan, numbered
from one, and at the end how many images they held.
-/

namespace PhotoIntake.Scanner

/-- What a scanner can be told. -/
inductive Command where
  | scan (root : Path) (withSubfolders : Bool)
  | abort
  deriving DecidableEq

/-- The tag of a command. -/
def Command.tag : Command → String
  | scan _ _ => "scan"
  | abort => "abort"

/-- What a scanner publishes. -/
inductive Event where
  | images (batch : Nat) (images : List Found)
  | complete (count : Nat) (stopped : Bool)
  deriving DecidableEq

/-- The tag of an event. -/
def Event.tag : Event → String
  | images _ _ => "images"
  | complete _ _ => "scan_complete"

/-- The events of a scan. -/
def events (o : ScanOutcome) : List Event :=
  (o.batches.zipIdx 1).map (fun (found, batch) => .images batch found) ++
    [.complete o.count o.stopped]

/-- A scanner: where it looks files up, and the size of its batches. -/
structure Setting where
  files : FileTree
  history : Option History
  batchSize : Nat

/-- The scanner as a worker.  A scan that is asked for runs to its end. -/
def worker : Worker Setting Command Event where
  prepare s := s
  handle command s :=
    match command with
    | .scan root withSubfolders =>
      let outcome := Scan.whole s.files s.history root withSubfolders s.batchSize
      (Dialogue.publishAll (events outcome)).bind fun () => .done s
    | .abort => .done s
  finish s := s

end PhotoIntake.Scanner
