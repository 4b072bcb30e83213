import PhotoIntake.Proofs.Image.RoundTrip
import PhotoIntake.Source.Codec

/-!
# Messages of the scanner are read back

Every command of a scanner stands in JSON for itself, and so does every event whose numbers are
counts of 64 bits.

* `Scanner.Command.codes` and `Scanner.Event.codes`: the two kinds of messages.
-/

namespace PhotoIntake

open Json (Codes)

theorem History.Download.codes (d : Download) : Codes ofJson? d.toJson d := by
  have htime : Codes (Json.nullable? Calendar.DateTime.ofJson?)
      (Json.ofOption Calendar.DateTime.toJson d.time) d.time := .option rfl fun t _ => t.codes
  exact ⟨by simp [toJson, htime.isProper], by simp [toJson, ofJson?, Json.text?, htime.read_eq]⟩

theorem Found.codes (f : Found) : Codes ofJson? f.toJson f := by
  have hdownloaded : Codes (Json.nullable? History.Download.ofJson?)
      (Json.ofOption History.Download.toJson f.downloaded) f.downloaded :=
    .option rfl fun d _ => d.codes
  exact ⟨by simp [toJson, hdownloaded.isProper],
    by simp [toJson, ofJson?, Json.text?, hdownloaded.read_eq]⟩

namespace Scanner

theorem Command.codes (command : Command) :
    Codes Message.ofJson? (Message.toJson command) command := by
  change Codes ofJson? command.toJson command
  cases command with
  | scan root withSubfolders =>
    exact ⟨rfl, by simp [toJson, ofJson?, Json.text?, Json.bool?]⟩
  | abort => exact ⟨rfl, rfl⟩

namespace Event

/-- The numbers of the event are counts. -/
def Fits : Event → Prop
  | images batch _ => batch < Json.countBound
  | complete count _ => count < Json.countBound

theorem codes {event : Event} (h : event.Fits) :
    Codes Message.ofJson? (Message.toJson event) event := by
  change Codes ofJson? event.toJson event
  cases event with
  | images batch found =>
    have hbatch := Json.codes_count h
    have hfound : Codes (Json.listOf? Found.ofJson?) (.array (found.map Found.toJson)) found :=
      .list fun f _ => f.codes
    exact ⟨by simp [toJson, hfound.isProper],
      by simp [toJson, ofJson?, hbatch.read_eq, hfound.read_eq]⟩
  | complete count stopped =>
    exact ⟨rfl, by simp [toJson, ofJson?, Json.bool?, (Json.codes_count h).read_eq]⟩

end Event

end Scanner

end PhotoIntake
