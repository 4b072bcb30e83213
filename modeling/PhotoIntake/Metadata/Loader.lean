import PhotoIntake.Error
import PhotoIntake.Image.Basic
import PhotoIntake.Metadata.Tags
import PhotoIntake.Worker.Loop

/-!
# Loading metadata

A loader answers requests for the capture date and the thumbnail of an image.  It reads the tags
that it needs through a reader; a reader that fails gives no tags, so every request is answered.
-/

namespace PhotoIntake.Metadata

/-- A source of tags with a state. -/
structure Reader (σ : Type) where
  start : σ → Except IntakeError Unit × σ
  read : σ → Path → List String → Except IntakeError Tags × σ
  finish : σ → σ

namespace Loader

/-- What a loader can be told. -/
inductive Command where
  | loadAll (key : ImageKey)
  | loadDate (key : ImageKey)
  | loadThumbnail (key : ImageKey)
  deriving DecidableEq

/-- The tag of a command. -/
def Command.tag : Command → String
  | loadAll _ => "load_all"
  | loadDate _ => "load_datetime"
  | loadThumbnail _ => "load_thumbnail"

/-- What a loader publishes. -/
inductive Event where
  | captured (key : ImageKey) (date : CaptureDate)
  | thumbnail (key : ImageKey) (thumbnail : Thumbnail)

/-- The tag of an event. -/
def Event.tag : Event → String
  | captured _ _ => "datetime"
  | thumbnail _ _ => "thumbnail"

/-- The tags that a thumbnail needs. -/
def thumbnailTags : List Tag :=
  [.orientation, .thumbnailImage, .thumbnailTiff, .exifWidth, .exifHeight, .imageWidth,
    .imageHeight]

/-- The tags that a command needs. -/
def Command.wanted : Command → List Tag
  | loadAll _ => .captureDate :: thumbnailTags
  | loadDate _ => [.captureDate]
  | loadThumbnail _ => thumbnailTags

/-- The image that a command is about. -/
def Command.key : Command → ImageKey
  | loadAll key => key
  | loadDate key => key
  | loadThumbnail key => key

/-- The answers to a command by the tags that were read. -/
def Command.answers (tags : Tags) : Command → List Event
  | loadAll key => [.captured key tags.captureDate, .thumbnail key (.ofTags tags)]
  | loadDate key => [.captured key tags.captureDate]
  | loadThumbnail key => [.thumbnail key (.ofTags tags)]

variable {σ : Type}

/-- The tags of a path; none when the reader fails. -/
def readTags (r : Reader σ) (s : σ) (p : Path) (wanted : List Tag) : Tags × σ :=
  match r.read s p (wanted.map Tag.name) with
  | (.ok tags, s) => (tags, s)
  | (.error _, s) => (.empty, s)

/-- The events of a command. -/
def load (r : Reader σ) (s : σ) (command : Command) : List Event × σ :=
  let (tags, s) := readTags r s ⟨command.key⟩ command.wanted
  (command.answers tags, s)

/-- The loader as a worker.  A reader that does not start is asked all the same. -/
def worker (r : Reader σ) : Worker σ Command Event where
  prepare s := (r.start s).2
  handle command s :=
    let (events, s) := load r s command
    (Dialogue.publishAll events).bind fun () => .done s
  finish s := r.finish s

end Loader

end PhotoIntake.Metadata
