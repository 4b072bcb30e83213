import PhotoIntake.Image.CaptureDate
import PhotoIntake.Path

/-!
# Images

An image is found on the source, then learns its capture date, its session label, whether it is
selected and whether it was downloaded before.
-/

namespace PhotoIntake

/-- The source path of an image, by which it is known. -/
abbrev ImageKey := String

/-- What is known of earlier downloads of an image. -/
inductive DownloadMark where
  | never
  | matched (path : String) (time : Option Calendar.DateTime)
  | marked (path : String) (time : Calendar.DateTime)
  deriving DecidableEq

namespace DownloadMark

/-- The image was downloaded before. -/
def isDownloaded : DownloadMark → Bool
  | never => false
  | _ => true

end DownloadMark

/-- An image on the source.  The extension includes its point. -/
structure Image where
  name : String
  path : String
  extension : String
  stem : String
  captured : Option CaptureDate
  session : String
  isSelected : Bool
  mark : DownloadMark
  deriving DecidableEq

namespace Image

/-- A selected image without a date, from its file name and its path. -/
def ofName (name path : String) : Image :=
  let asPath : Path := ⟨name⟩
  { name := name
    path := path
    extension := match asPath.extension? with
      | some e => "." ++ e
      | none => ""
    stem := asPath.stem?.getD ""
    captured := none
    session := ""
    isSelected := true
    mark := .never }

/-- A selected image without a date, from its path. -/
def ofPath (p : Path) : Image :=
  ofName (p.fileName?.getD "") p.text

/-- What the image is known by. -/
def key (image : Image) : ImageKey :=
  image.path

/-- The capture date was asked for and answered. -/
def isLoaded (image : Image) : Bool :=
  image.captured.isSome

/-- The image takes part in previews and downloads. -/
def isCandidate (image : Image) : Bool :=
  image.isLoaded && image.isSelected

/-- When the image was taken; the start of 1970 if that is not known. -/
def captureTime (image : Image) : Calendar.DateTime :=
  (image.captured.bind CaptureDate.toDateTime?).getD .epoch

/-- Where the image is. -/
def source (image : Image) : Path :=
  ⟨image.path⟩

end Image

/-- A change to a property of an image. -/
inductive ImageUpdate where
  | captured (date : CaptureDate)
  | selected (isSelected : Bool)
  | session (label : String)
  deriving DecidableEq

namespace ImageUpdate

/-- The image after the change. -/
def apply (image : Image) : ImageUpdate → Image
  | captured date => { image with captured := some date }
  | selected isSelected => { image with isSelected }
  | session label => { image with session := label }

end ImageUpdate

end PhotoIntake
