import PhotoIntake.Download.Mover
import PhotoIntake.Source.Scan

/-!
# Sessions

A session scans a source, loads the capture dates of what it found, and previews or downloads it.
This module holds what it is told, what it tells and how it ends.
-/

namespace PhotoIntake.Session

/-- What a session is to do. -/
structure Options where
  source : Path
  destination : Path
  withSubfolders : Bool
  mode : TransferMode
  imageTemplate : Naming.Template
  destinationTemplate : Naming.Template
  label : String
  skipsDownloaded : Bool
  deriving DecidableEq

/-- What a session tells while it runs. -/
inductive Progress where
  | scanned (images : Nat)
  | dated (done total : Nat)
  | started (total : Nat)
  | downloaded (images : Nat)
  deriving DecidableEq

/-- The progress of a session for that of its download. -/
def Progress.ofDownload : PhotoIntake.Progress → Progress
  | .selected total => started total
  | .processed images => downloaded images

/-- How a download session ended.  There is no report when it was cancelled before the download. -/
structure Summary where
  scanned : Nat
  skipped : Nat
  report : Option Report
  recorded : Nat
  sequencesSaved : Bool
  deriving DecidableEq

namespace Summary

/-- The summary of a session that was cancelled before the download. -/
def cancelled : Summary :=
  ⟨0, 0, none, 0, false⟩

/-- What is said of the session. -/
def message (s : Summary) : String :=
  match s.report with
  | some report => report.message
  | none => "Download cancelled! 0 images downloaded."

end Summary

/-- What a download would do: the first image with its name and folder, and all folders. -/
structure PreviewSummary where
  scanned : Nat
  candidates : Nat
  sample : Option Preview
  folders : List String
  deriving DecidableEq

/-- The preview of a session that was cancelled. -/
def PreviewSummary.cancelled : PreviewSummary :=
  ⟨0, 0, none, []⟩

/-- The image of a file that was found.  One that was downloaded before is not selected when the
session skips those. -/
def imageOf (o : Options) (f : Found) : Image :=
  let image := { Image.ofName f.name f.path with session := o.label }
  match f.downloaded with
  | some d => { image with mark := .matched d.target d.time, isSelected := !o.skipsDownloaded }
  | none => image

end PhotoIntake.Session
