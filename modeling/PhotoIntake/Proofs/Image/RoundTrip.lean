import PhotoIntake.Proofs.Calendar.RoundTrip
import PhotoIntake.Proofs.Json.Codes

/-!
# Images are read back

Every image stands in JSON for itself: its capture date as six texts, its download mark as a case
with a date-time of the calendar.  So does every update of an image.
-/

namespace PhotoIntake

open Json (Codes)

theorem Calendar.DateTime.codes (t : DateTime) : Codes ofJson? t.toJson t :=
  ⟨rfl, by rw [ofJson?, toJson, Json.text?, Option.bind_some, read?_text]⟩

theorem CaptureDate.codes (d : CaptureDate) : Codes ofJson? d.toJson d :=
  ⟨rfl, by simp [ofJson?, toJson, fields, Json.text?]⟩

namespace DownloadMark

theorem codes (mark : DownloadMark) : Codes ofJson? mark.toJson mark := by
  cases mark with
  | never => exact ⟨rfl, rfl⟩
  | matched path time =>
    have htime : Codes (Json.nullable? Calendar.DateTime.ofJson?)
        (Json.ofOption Calendar.DateTime.toJson time) time :=
      .option rfl fun t _ => t.codes
    exact ⟨by simp [toJson, htime.isProper],
      by simp [toJson, ofJson?, Json.text?, htime.read_eq]⟩
  | marked path time =>
    exact ⟨rfl, by simp [toJson, ofJson?, Json.text?, time.codes.read_eq]⟩

end DownloadMark

theorem Image.codes (image : Image) : Codes ofJson? image.toJson image := by
  have hcaptured : Codes (Json.nullable? CaptureDate.ofJson?)
      (Json.ofOption CaptureDate.toJson image.captured) image.captured :=
    .option rfl fun d _ => d.codes
  have hmark := image.mark.codes
  exact ⟨by simp [toJson, hcaptured.isProper, hmark.isProper],
    by simp [toJson, ofJson?, fields, Json.text?, Json.bool?, hcaptured.read_eq, hmark.read_eq]⟩

theorem ImageUpdate.codes (update : ImageUpdate) : Codes ofJson? update.toJson update := by
  cases update with
  | captured date => exact ⟨rfl, by simp [toJson, ofJson?, date.codes.read_eq]⟩
  | selected isSelected => exact ⟨rfl, rfl⟩
  | session label => exact ⟨rfl, rfl⟩

end PhotoIntake
