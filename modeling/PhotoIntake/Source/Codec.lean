import PhotoIntake.Image.Codec
import PhotoIntake.Source.Command
import PhotoIntake.Worker.Message

/-!
# Commands and events of the scanner in JSON
-/

namespace PhotoIntake

namespace History.Download

/-- The written form of what is known of a download. -/
def toJson (d : Download) : Json :=
  .object [("download_name", .text d.target),
    ("download_datetime", Json.ofOption Calendar.DateTime.toJson d.time)]

/-- What is known of a download, from a record. -/
def ofJson? (v : Json) : Option Download := do
  let r ← Json.Record.ofJson? ["download_name", "download_datetime"] v
  let target ← r.required "download_name" Json.text?
  let time ← r.optional "download_datetime" Calendar.DateTime.ofJson?
  return { target, time }

end History.Download

namespace Found

/-- The written form of an image that was found. -/
def toJson (f : Found) : Json :=
  .object [("name", .text f.name), ("path", .text f.path),
    ("downloaded", Json.ofOption History.Download.toJson f.downloaded)]

/-- The image that was found of a record. -/
def ofJson? (v : Json) : Option Found := do
  let r ← Json.Record.ofJson? ["name", "path", "downloaded"] v
  let name ← r.required "name" Json.text?
  let path ← r.required "path" Json.text?
  let downloaded ← r.optional "downloaded" History.Download.ofJson?
  return { name, path, downloaded }

end Found

namespace Scanner

namespace Command

/-- The written form of a command. -/
def toJson : Command → Json
  | scan root withSubfolders => .object [("Scan", .object [
      ("path", .text root.text), ("include_subdirs", .bool withSubfolders)])]
  | abort => .text "Abort"

/-- The command of a case. -/
def ofJson? (v : Json) : Option Command :=
  if v.bareCase? = some "Abort" then some abort
  else
    match Json.caseContent? v with
    | some ("Scan", content) => do
      let r ← Json.Record.ofJson? ["path", "include_subdirs"] content
      let root ← r.required "path" Json.text?
      let withSubfolders ← r.required "include_subdirs" Json.bool?
      return scan ⟨root⟩ withSubfolders
    | _ => none

instance : Message Command where
  tag := tag
  toJson := toJson
  ofJson? := ofJson?

end Command

namespace Event

/-- The written form of an event. -/
def toJson : Event → Json
  | images batch found => .object [("Images", .object [
      ("batch", Json.ofNat batch), ("images", .array (found.map Found.toJson))])]
  | complete count stopped => .object [("ScanComplete", .object [
      ("count", Json.ofNat count), ("stopped", .bool stopped)])]

/-- The event of a case. -/
def ofJson? (v : Json) : Option Event :=
  match Json.caseContent? v with
  | some ("Images", content) => do
    let r ← Json.Record.ofJson? ["batch", "images"] content
    let batch ← r.required "batch" Json.count?
    let found ← r.required "images" (Json.listOf? Found.ofJson?)
    return images batch found
  | some ("ScanComplete", content) => do
    let r ← Json.Record.ofJson? ["count", "stopped"] content
    let count ← r.required "count" Json.count?
    let stopped ← r.required "stopped" Json.bool?
    return complete count stopped
  | _ => none

instance : Message Event where
  tag := tag
  toJson := toJson
  ofJson? := ofJson?

end Event

end Scanner

end PhotoIntake
