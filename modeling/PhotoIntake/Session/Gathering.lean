import PhotoIntake.Session.Basic
import PhotoIntake.Worker.Dialogue

/-!
# Gathering images and dates

The workers of a session publish events; the session takes them in the order in which they arrive.
First it gathers the images of a scan, then the capture dates of the selected ones.  Before each
event it asks whether it was cancelled.  Events that it does not wait for are passed over.
-/

namespace PhotoIntake.Session

/-- What arrives from the workers. -/
inductive Event where
  | images (found : List Found)
  | scanComplete (stopped : Bool)
  | captured (key : ImageKey) (date : CaptureDate)
  | other

/-- How waiting for events ended. -/
inductive Outcome (α : Type) where
  | complete (result : α)
  | cancelled
  | silent

/-- The events of a scan. -/
def scanEvents (o : ScanOutcome) : List Event :=
  o.batches.map .images ++ [.scanComplete o.stopped]

/-- Gather images until the scan is complete; what remains are the later events. -/
def gatherImages (o : Options) :
    List Event → List Image → Dialogue Unit Progress (Outcome (List Image) × List Event)
  | [], _ => .ask () fun cancelled => .done (if cancelled then .cancelled else .silent, [])
  | event :: rest, images =>
    .ask () fun cancelled =>
      if cancelled then .done (.cancelled, rest)
      else
        match event with
        | .images found =>
          let images := images ++ found.map (imageOf o)
          .publish (.scanned images.length) (gatherImages o rest images)
        | .scanComplete true => .done (.cancelled, rest)
        | .scanComplete false => .done (.complete images, rest)
        | _ => gatherImages o rest images

/-- The keys of the selected images, each once. -/
def wantedKeys (images : List Image) : List ImageKey :=
  Mover.firstSeen ((images.filter (·.isSelected)).map Image.key)

/-- The selected image has the key and no date yet. -/
def awaits (key : ImageKey) (image : Image) : Bool :=
  image.isSelected && image.key == key && !image.isLoaded

/-- The images with the date of a key set, if its image is selected. -/
def setDate (key : ImageKey) (date : CaptureDate) (images : List Image) : List Image :=
  images.map fun image =>
    if image.isSelected && image.key == key then { image with captured := some date } else image

/-- Gather dates until as many keys as asked for have one; what remains are the later events. -/
def gatherDates (total : Nat) : List Event → Nat → List Image →
    Dialogue Unit Progress (Outcome (List Image) × List Event)
  | events, done, images =>
    if total ≤ done then .done (.complete images, events)
    else
      .ask () fun cancelled =>
        if cancelled then .done (.cancelled, events)
        else
          match events with
          | [] => .done (.silent, [])
          | .captured key date :: rest =>
            if (wantedKeys images).contains key then
              let done := if images.any (awaits key) then done + 1 else done
              .publish (.dated done total) (gatherDates total rest done (setDate key date images))
            else gatherDates total rest done images
          | _ :: rest => gatherDates total rest done images

end PhotoIntake.Session
