import PhotoIntake.Download.Command
import PhotoIntake.Image.Codec
import PhotoIntake.Naming.Template.Codec
import PhotoIntake.Worker.Message

/-!
# Commands and events of the mover in JSON
-/

namespace PhotoIntake

namespace Downloaded

/-- The written form of an image that was written. -/
def toJson (d : Downloaded) : Json :=
  .object [("key", .text d.key), ("download_time", d.time.toJson),
    ("destination", .text d.destination.text)]

/-- The image that was written of a record. -/
def ofJson? (v : Json) : Option Downloaded := do
  let r ← Json.Record.ofJson? ["key", "download_time", "destination"] v
  let key ← r.required "key" Json.text?
  let time ← r.required "download_time" Calendar.DateTime.ofJson?
  let destination ← r.required "destination" Json.text?
  return { key, time, destination := ⟨destination⟩ }

end Downloaded

namespace Report

/-- The written form of a report. -/
def toJson (r : Report) : Json :=
  .object [("message", .text r.message), ("cancelled", .bool r.cancelled),
    ("images", .array (r.images.map Downloaded.toJson))]

/-- The report of a record. -/
def ofJson? (v : Json) : Option Report := do
  let r ← Json.Record.ofJson? ["message", "cancelled", "images"] v
  let message ← r.required "message" Json.text?
  let cancelled ← r.required "cancelled" Json.bool?
  let images ← r.required "images" (Json.listOf? Downloaded.ofJson?)
  return { message, cancelled, images }

end Report

namespace Preview

/-- The written form of a preview. -/
def toJson (p : Preview) : Json :=
  .object [("name", .text p.name), ("path", .text p.folder)]

/-- The preview of a record. -/
def ofJson? (v : Json) : Option Preview := do
  let r ← Json.Record.ofJson? ["name", "path"] v
  let name ← r.required "name" Json.text?
  let folder ← r.required "path" Json.text?
  return { name, folder }

end Preview

namespace Mover

namespace Command

/-- The written form of a command. -/
def toJson : Command → Json
  | setDestination path => .object [("SetDestination", .text path.text)]
  | setMode mode => .object [("SetTransferMode", .text mode.title)]
  | setImageTemplate template => .object [("SetImageTemplate", template.toJson)]
  | setDestinationTemplate template => .object [("SetDestinationTemplate", template.toJson)]
  | setImages images => .object [("SetImages", .array (images.map Image.toJson))]
  | clearImages => .text "ClearImages"
  | addImages images => .object [("AddImages", .array (images.map Image.toJson))]
  | updateImages keys update => .object [("UpdateImagesInfo", .object [
      ("keys", Json.ofTexts keys), ("update", update.toJson)])]
  | previewImage sample => .object [("GetImagePreview", sample.toJson)]
  | previewFolders => .text "GetFoldersPreview"
  | download => .text "Download"
  | cancel => .text "Cancel"
  | saveSequences => .text "SaveSequences"

/-- The commands without content, with their names. -/
def bare : List (String × Command) :=
  [("ClearImages", clearImages), ("GetFoldersPreview", previewFolders), ("Download", download),
    ("Cancel", cancel), ("SaveSequences", saveSequences)]

/-- The update of several images of a record. -/
def updateOfJson? (v : Json) : Option Command := do
  let r ← Json.Record.ofJson? ["keys", "update"] v
  let keys ← r.required "keys" Json.texts?
  let update ← r.required "update" ImageUpdate.ofJson?
  return updateImages keys update

/-- The command of a case with content. -/
def ofContent? (name : String) (content : Json) : Option Command :=
  match name with
  | "SetDestination" => content.text?.map fun s => setDestination ⟨s⟩
  | "SetTransferMode" => (content.bareCase?.bind TransferMode.ofTitle?).map setMode
  | "SetImageTemplate" => (Naming.Template.ofJson? content).map setImageTemplate
  | "SetDestinationTemplate" => (Naming.Template.ofJson? content).map setDestinationTemplate
  | "SetImages" => (Json.listOf? Image.ofJson? content).map setImages
  | "AddImages" => (Json.listOf? Image.ofJson? content).map addImages
  | "UpdateImagesInfo" => updateOfJson? content
  | "GetImagePreview" => (Image.ofJson? content).map previewImage
  | _ => none

/-- The command of a case. -/
def ofJson? (v : Json) : Option Command :=
  match v.bareCase?.bind fun name => bare.lookup name with
  | some command => some command
  | none => (Json.caseContent? v).bind fun (name, content) => ofContent? name content

instance : Message Command where
  tag := tag
  toJson := toJson
  ofJson? := ofJson?

end Command

namespace Event

/-- The written form of an event. -/
def toJson : Event → Json
  | imagePreview preview => .object [("ImagePreview", preview.toJson)]
  | folderPreview folders => .object [("FolderPreview", Json.ofTexts folders)]
  | selected images => .object [("SelectedImagesCount", Json.ofNat images)]
  | processed images => .object [("DownloadedImagesCount", Json.ofNat images)]
  | downloadCompleted report => .object [("DownloadCompleted", report.toJson)]
  | downloadCancelled report => .object [("DownloadCancelled", report.toJson)]
  | sequencesSaved => .text "SequencesSaved"
  | sequencesNotSaved message => .object [("SequencesSaveFailed", .text message)]

/-- The event of a case. -/
def ofJson? (v : Json) : Option Event :=
  if v.bareCase? = some "SequencesSaved" then some sequencesSaved
  else
    match Json.caseContent? v with
    | some ("ImagePreview", content) => (Preview.ofJson? content).map imagePreview
    | some ("FolderPreview", content) => (Json.texts? content).map folderPreview
    | some ("SelectedImagesCount", content) => content.count?.map selected
    | some ("DownloadedImagesCount", content) => content.count?.map processed
    | some ("DownloadCompleted", content) => (Report.ofJson? content).map downloadCompleted
    | some ("DownloadCancelled", content) => (Report.ofJson? content).map downloadCancelled
    | some ("SequencesSaveFailed", content) => content.text?.map sequencesNotSaved
    | _ => none

instance : Message Event where
  tag := tag
  toJson := toJson
  ofJson? := ofJson?

end Event

end Mover

end PhotoIntake
