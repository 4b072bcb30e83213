import PhotoIntake.Image.Codec
import PhotoIntake.Metadata.Loader
import PhotoIntake.Worker.Message

/-!
# Commands and events of the loader in JSON

The bytes of a thumbnail are written in base 64.
-/

namespace PhotoIntake.Metadata

namespace Thumbnail

/-- The written form of bytes. -/
def bytesToJson (bytes : List UInt8) : Json :=
  .text (String.ofList (Text.Base64.encode bytes))

/-- The bytes of a text. -/
def bytesOfJson? (v : Json) : Option (List UInt8) :=
  v.text?.bind fun s => Text.Base64.decode? s.toList

/-- The number of an integer. -/
def integerToJson (n : Int) : Json :=
  .number ⟨n < 0, n.natAbs, [], none⟩

/-- The integer of 32 bits of a value. -/
def integerOfJson? : Json → Option Int
  | .number n =>
    n.toInt64?.filter fun i => -(Decimal.wordBound 31 : Int) ≤ i ∧ i < Decimal.wordBound 31
  | _ => none

/-- The written form of a thumbnail. -/
def toJson (t : Thumbnail) : Json :=
  .object [("data", Json.ofOption bytesToJson t.data), ("aspect_ratio", Json.ofFloat t.aspectRatio),
    ("orientation", integerToJson t.rotation)]

/-- The thumbnail of a record; no field may be left out. -/
def ofJson? (v : Json) : Option Thumbnail := do
  let r ← Json.Record.ofJson? ["data", "aspect_ratio", "orientation"] v
  let data ← r.required "data" (Json.nullable? bytesOfJson?)
  let aspectRatio ← r.required "aspect_ratio" Json.float?
  let rotation ← r.required "orientation" integerOfJson?
  return { data, aspectRatio, rotation }

end Thumbnail

namespace Loader

namespace Command

/-- The written form of a command. -/
def toJson : Command → Json
  | loadAll key => .object [("LoadAll", .text key)]
  | loadDate key => .object [("LoadDatetime", .text key)]
  | loadThumbnail key => .object [("LoadThumbnail", .text key)]

/-- The command of a case. -/
def ofJson? (v : Json) : Option Command :=
  match Json.caseContent? v with
  | some ("LoadAll", content) => content.text?.map loadAll
  | some ("LoadDatetime", content) => content.text?.map loadDate
  | some ("LoadThumbnail", content) => content.text?.map loadThumbnail
  | _ => none

instance : Message Command where
  tag := tag
  toJson := toJson
  ofJson? := ofJson?

end Command

namespace Event

/-- The written form of an event. -/
def toJson : Event → Json
  | captured key date => .object [("Datetime", .object [
      ("key", .text key), ("datetime", date.toJson)])]
  | thumbnail key picture => .object [("Thumbnail", .object [
      ("key", .text key), ("thumbnail", picture.toJson)])]

/-- The event of a case. -/
def ofJson? (v : Json) : Option Event :=
  match Json.caseContent? v with
  | some ("Datetime", content) => do
    let r ← Json.Record.ofJson? ["key", "datetime"] content
    let key ← r.required "key" Json.text?
    let date ← r.required "datetime" CaptureDate.ofJson?
    return captured key date
  | some ("Thumbnail", content) => do
    let r ← Json.Record.ofJson? ["key", "thumbnail"] content
    let key ← r.required "key" Json.text?
    let picture ← r.required "thumbnail" Thumbnail.ofJson?
    return thumbnail key picture
  | _ => none

instance : Message Event where
  tag := tag
  toJson := toJson
  ofJson? := ofJson?

end Event

end Loader

end PhotoIntake.Metadata
