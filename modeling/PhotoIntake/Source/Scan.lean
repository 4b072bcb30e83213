import PhotoIntake.History.Basic
import PhotoIntake.Source.Walk

/-!
# Scanning a source

A scan takes the image files of a walk and hands them out in batches of one size; what remains at
the end is a smaller batch.  It looks at the stop flag before every entry.
-/

namespace PhotoIntake

/-- An image file that was found, with what is known of its download. -/
structure Found where
  name : String
  path : String
  downloaded : Option History.Download
  deriving DecidableEq

/-- The surroundings of a scan: the stop flag, the record of downloads and the receiver of
batches.  Each of them may change the state of the others. -/
structure Surroundings (σ : Type) where
  isStopped : σ → Bool × σ
  lookup : σ → Path → Option History.Download × σ
  receive : σ → Nat → List Found → Bool × σ

/-- How a scan ended: the batches that were handed out, and whether it was stopped. -/
structure ScanOutcome where
  batches : List (List Found)
  stopped : Bool
  deriving DecidableEq

namespace ScanOutcome

/-- The number of images that were handed out. -/
def count (o : ScanOutcome) : Nat :=
  o.batches.flatten.length

end ScanOutcome

namespace Scan

variable {σ : Type}

/-- A scan under way: the batches handed out, and the images of the batch that is filling. -/
structure State where
  sent : List (List Found)
  filling : List Found

/-- Hand out what remains at the end of the walk. -/
def finish (w : Surroundings σ) (env : σ) (s : State) (stopped : Bool) : ScanOutcome × σ :=
  if s.filling.isEmpty then (⟨s.sent, stopped⟩, env)
  else
    let (_, env) := w.receive env (s.sent.length + 1) s.filling
    (⟨s.sent ++ [s.filling], stopped⟩, env)

/-- Scan the rest of a walk. -/
def scanRest (w : Surroundings σ) (batchSize : Nat) : Walk → State → σ → ScanOutcome × σ
  | [], s, env => finish w env s false
  | item :: rest, s, env =>
    let (stop, env) := w.isStopped env
    if stop then (⟨s.sent, true⟩, env)
    else
      match item with
      | none => scanRest w batchSize rest s env
      | some v =>
        if v.isFile && Walk.isImage v.path then
          let (downloaded, env) := w.lookup env v.path
          let filling := s.filling ++ [⟨v.name, v.path.text, downloaded⟩]
          if filling.length = batchSize then
            let (accepted, env) := w.receive env (s.sent.length + 1) filling
            if accepted then scanRest w batchSize rest ⟨s.sent ++ [filling], []⟩ env
            else (⟨s.sent ++ [filling], true⟩, env)
          else scanRest w batchSize rest { s with filling } env
        else scanRest w batchSize rest s env

/-- Scan a walk in batches of the given size, at least one. -/
def run (w : Surroundings σ) (batchSize : Nat) (walk : Walk) (env : σ) : ScanOutcome × σ :=
  scanRest w (max batchSize 1) walk ⟨[], []⟩ env

/-- What a history knows of the file at a path. -/
def lookupIn (history : Option History) (t : FileTree) (p : Path) : Option History.Download :=
  match history, FileIdentity.ofPath t p with
  | some h, .ok id => h.lookup id
  | _, _ => none

/-- Surroundings in which nothing stops a scan. -/
def undisturbed (history : Option History) (t : FileTree) : Surroundings Unit where
  isStopped _ := (false, ())
  lookup _ p := (lookupIn history t p, ())
  receive _ _ _ := (true, ())

/-- The whole scan of a source. -/
def whole (t : FileTree) (history : Option History) (root : Path) (withSubfolders : Bool)
    (batchSize : Nat) : ScanOutcome :=
  (run (undisturbed history t) batchSize (Walk.ofSource t root withSubfolders) ()).1

end Scan

end PhotoIntake
