import PhotoIntake.Image.CaptureDate
import PhotoIntake.Json.Float
import PhotoIntake.Text.Base64

/-!
# Metadata tags

The tags of an image file, and what is read from them: the capture date and the embedded
thumbnail.  A tag that is missing or has an unexpected value never is an error.
-/

namespace PhotoIntake.Metadata

/-- The tags that are asked for. -/
inductive Tag where
  | captureDate
  | orientation
  | thumbnailImage
  | thumbnailTiff
  | exifWidth
  | exifHeight
  | imageWidth
  | imageHeight
  deriving DecidableEq

/-- The name of a tag, with its group. -/
def Tag.name : Tag → String
  | captureDate => "EXIF:DateTimeOriginal"
  | orientation => "EXIF:Orientation"
  | thumbnailImage => "EXIF:ThumbnailImage"
  | thumbnailTiff => "EXIF:ThumbnailTIFF"
  | exifWidth => "EXIF:ExifImageWidth"
  | exifHeight => "EXIF:ExifImageHeight"
  | imageWidth => "EXIF:ImageWidth"
  | imageHeight => "EXIF:ImageHeight"

/-- Tags with their values. -/
structure Tags where
  values : List (String × Json)

namespace Tags

/-- No tags. -/
def empty : Tags :=
  ⟨[]⟩

/-- The value of a tag. -/
def get? (tags : Tags) (tag : Tag) : Option Json :=
  (Json.object tags.values).member? tag.name

/-- The tags with the given names. -/
def restrict (tags : Tags) (names : List String) : Tags :=
  ⟨tags.values.filter fun v => names.contains v.1⟩

/-- The value of a tag that is a text. -/
def text? (tags : Tags) (tag : Tag) : Option String :=
  (tags.get? tag).bind Json.text?

/-- The value of a tag that is a number. -/
def number? (tags : Tags) (tag : Tag) : Option Float :=
  (tags.get? tag).bind Json.float?

/-- The capture date; the fallback when it cannot be read. -/
def captureDate (tags : Tags) : CaptureDate :=
  ((tags.text? .captureDate).bind CaptureDate.ofMetadata?).getD .fallback

end Tags

/-- A small picture of an image.  The aspect ratio is zero when it is unknown; the rotation is in
degrees. -/
structure Thumbnail where
  data : Option (List UInt8)
  aspectRatio : Float
  rotation : Int

namespace Thumbnail

/-- No thumbnail. -/
def absent : Thumbnail :=
  ⟨none, 0, 0⟩

/-- The longer side over the shorter one, with one decimal; zero when a side is not positive. -/
def aspectRatioOf (width height : Float) : Float :=
  if width ≤ 0 ∨ height ≤ 0 then 0
  else
    let ratio := if height ≤ width then width / height else height / width
    (ratio * 10).round / 10

/-- The rotation for the code of an orientation. -/
def rotationOf (code : Int) : Int :=
  if code = 6 then 90 else if code = 8 then -90 else 0

/-- What may stand in front of encoded bytes. -/
def encodedMark : List Char :=
  "base64:".toList

/-- The bytes of an encoded text, if there are any. -/
def bytesOf? (text : String) : Option (List UInt8) :=
  let s := text.toList
  let body := if encodedMark.isPrefixOf s then s.drop encodedMark.length else s
  (Text.Base64.decode? body).filter fun bytes => !bytes.isEmpty

/-- Width and height by the first pair of tags that has both. -/
def size? (tags : Tags) : Option (Float × Float) :=
  [(Tag.exifWidth, Tag.exifHeight), (.imageWidth, .imageHeight)].findSome? fun (w, h) => do
    let width ← tags.number? w
    let height ← tags.number? h
    return (width, height)

/-- The code of the orientation. -/
def orientation? (tags : Tags) : Option Int :=
  match tags.get? .orientation with
  | some (.number n) => n.toInt64?
  | _ => none

/-- The thumbnail in the first tag for thumbnails that is a text. -/
def ofTags (tags : Tags) : Thumbnail :=
  let encoded := [Tag.thumbnailImage, .thumbnailTiff].findSome? tags.text?
  match encoded.bind bytesOf? with
  | none => absent
  | some bytes =>
    { data := some bytes
      aspectRatio := ((size? tags).map fun (w, h) => aspectRatioOf w h).getD 0
      rotation := ((orientation? tags).map rotationOf).getD 0 }

end Thumbnail

end PhotoIntake.Metadata
