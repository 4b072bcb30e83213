import PhotoIntake.Download.Codec
import PhotoIntake.Proofs.Image.RoundTrip
import PhotoIntake.Proofs.Naming.RoundTrip

/-!
# Messages of the mover are read back

Every command of a mover stands in JSON for itself, and so does every event whose numbers are counts
of 64 bits.

* `Mover.Command.codes` and `Mover.Event.codes`: the two kinds of messages.
-/

namespace PhotoIntake

open Json (Codes)

theorem Downloaded.codes (d : Downloaded) : Codes ofJson? d.toJson d :=
  ⟨rfl, by simp [toJson, ofJson?, Json.text?, d.time.codes.read_eq]⟩

theorem Report.codes (r : Report) : Codes ofJson? r.toJson r := by
  have himages : Codes (Json.listOf? Downloaded.ofJson?)
      (.array (r.images.map Downloaded.toJson)) r.images := .list fun d _ => d.codes
  exact ⟨by simp [toJson, himages.isProper],
    by simp [toJson, ofJson?, Json.text?, Json.bool?, himages.read_eq]⟩

theorem Preview.codes (p : Preview) : Codes ofJson? p.toJson p :=
  ⟨rfl, by simp [toJson, ofJson?, Json.text?]⟩

theorem TransferMode.ofTitle?_title (mode : TransferMode) : ofTitle? mode.title = some mode := by
  cases mode <;> decide

theorem codes_images (images : List Image) :
    Codes (Json.listOf? Image.ofJson?) (.array (images.map Image.toJson)) images :=
  .list fun image _ => image.codes

namespace Mover

namespace Command

/-- A case with content stands for what its name makes of the content. -/
theorem codes_content {name : String} {content : Json} {command : Command}
    (hname : bare.lookup name = none) (hproper : content.isProper = true)
    (hread : ofContent? name content = some command) :
    Codes ofJson? (.object [(name, content)]) command := by
  refine ⟨by simp [hproper], ?_⟩
  rw [ofJson?, Json.bareCase?_object_bind hname]
  exact hread

theorem codes (command : Command) : Codes Message.ofJson? (Message.toJson command) command := by
  change Codes ofJson? command.toJson command
  cases command with
  | setDestination path => exact codes_content (by decide) rfl rfl
  | setMode mode =>
    exact codes_content (by decide) rfl (by simp [ofContent?, TransferMode.ofTitle?_title])
  | setImageTemplate template =>
    have hcontent := template.codes
    exact codes_content (by decide) hcontent.isProper (by simp [ofContent?, hcontent.read_eq])
  | setDestinationTemplate template =>
    have hcontent := template.codes
    exact codes_content (by decide) hcontent.isProper (by simp [ofContent?, hcontent.read_eq])
  | setImages images =>
    have hcontent := codes_images images
    exact codes_content (by decide) hcontent.isProper (by simp [ofContent?, hcontent.read_eq])
  | addImages images =>
    have hcontent := codes_images images
    exact codes_content (by decide) hcontent.isProper (by simp [ofContent?, hcontent.read_eq])
  | updateImages keys update =>
    have hkeys := Json.codes_texts keys
    have hupdate := update.codes
    exact codes_content (by decide) (by simp [hkeys.isProper, hupdate.isProper])
      (by simp [ofContent?, updateOfJson?, hkeys.read_eq, hupdate.read_eq])
  | previewImage sample =>
    have hcontent := sample.codes
    exact codes_content (by decide) hcontent.isProper (by simp [ofContent?, hcontent.read_eq])
  | clearImages | previewFolders | download | cancel | saveSequences => exact ⟨rfl, rfl⟩

end Command

namespace Event

/-- The numbers of the event are counts. -/
def Fits : Event → Prop
  | selected images | processed images => images < Json.countBound
  | _ => True

theorem codes {event : Event} (h : event.Fits) :
    Codes Message.ofJson? (Message.toJson event) event := by
  change Codes ofJson? event.toJson event
  cases event with
  | imagePreview preview =>
    exact ⟨by simp [toJson, preview.codes.isProper],
      by simp [toJson, ofJson?, preview.codes.read_eq]⟩
  | folderPreview folders =>
    have hfolders := Json.codes_texts folders
    exact ⟨by simp [toJson, hfolders.isProper], by simp [toJson, ofJson?, hfolders.read_eq]⟩
  | selected images => exact ⟨rfl, by simp [toJson, ofJson?, (Json.codes_count h).read_eq]⟩
  | processed images => exact ⟨rfl, by simp [toJson, ofJson?, (Json.codes_count h).read_eq]⟩
  | downloadCompleted report =>
    exact ⟨by simp [toJson, report.codes.isProper],
      by simp [toJson, ofJson?, report.codes.read_eq]⟩
  | downloadCancelled report =>
    exact ⟨by simp [toJson, report.codes.isProper],
      by simp [toJson, ofJson?, report.codes.read_eq]⟩
  | sequencesSaved => exact ⟨rfl, rfl⟩
  | sequencesNotSaved message => exact ⟨rfl, rfl⟩

end Event

end Mover

end PhotoIntake
