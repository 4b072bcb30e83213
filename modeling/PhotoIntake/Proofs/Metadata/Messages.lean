import PhotoIntake.Metadata.Codec
import PhotoIntake.Proofs.Image.RoundTrip
import PhotoIntake.Proofs.Json.Float
import PhotoIntake.Proofs.Text.Base64

/-!
# Messages of the loader are read back

Every command of a loader stands in JSON for itself, and so does every capture date.  A thumbnail
with a finite aspect ratio and a rotation of 32 bits is read back, its bytes and its rotation
unchanged; the aspect ratio that is read may be another double.

* `Loader.Command.codes` and `Loader.Event.exists_codes`: the two kinds of messages.
-/

namespace PhotoIntake.Metadata

open Json (Codes)

namespace Thumbnail

theorem codes_bytes (bytes : List UInt8) : Codes bytesOfJson? (bytesToJson bytes) bytes := by
  refine ⟨rfl, ?_⟩
  rw [bytesOfJson?, bytesToJson, Json.text?, Option.bind_some, String.toList_ofList,
    Text.Base64.decode?_encode]

/-- The integer fits a word of 32 bits with a sign. -/
def IsWord (n : Int) : Prop :=
  -(Decimal.wordBound 31 : Int) ≤ n ∧ n < Decimal.wordBound 31

instance (n : Int) : Decidable (IsWord n) :=
  inferInstanceAs (Decidable (_ ∧ _))

theorem codes_integer {n : Int} (h : IsWord n) : Codes integerOfJson? (integerToJson n) n := by
  have hshort : Decimal.wordBound 31 = 2147483648 := rfl
  have hlong : Decimal.wordBound 63 = 9223372036854775808 := rfl
  have hword := h
  rw [IsWord, hshort] at hword
  have hinteger : (⟨n < 0, n.natAbs, [], none⟩ : Json.Number).toInt64? = some n := by
    have hwhole : (⟨n < 0, n.natAbs, [], none⟩ : Json.Number).isWhole = true := rfl
    rw [Json.Number.toInt64?, hwhole]
    simp only [hlong, Bool.not_true, Bool.false_eq_true, if_false, decide_eq_true_eq]
    by_cases hnegative : n < 0
    · rw [if_pos hnegative, if_pos (by omega)]
      exact congrArg some (by omega)
    · rw [if_neg hnegative, if_pos (by omega)]
      exact congrArg some (by omega)
  have hread : integerOfJson? (integerToJson n) = (some n).filter fun i =>
      decide (-(Decimal.wordBound 31 : Int) ≤ i ∧ i < Decimal.wordBound 31) :=
    congrArg (Option.filter _) hinteger
  exact ⟨rfl, hread.trans (Option.filter_some_pos (decide_eq_true h))⟩

/-- The aspect ratio of the thumbnail is a number, and its rotation fits a word. -/
structure Fits (t : Thumbnail) : Prop where
  isFinite : t.aspectRatio.isFinite = true
  isWord : IsWord t.rotation

/-- A thumbnail stands in JSON for one that differs in the aspect ratio at most. -/
theorem exists_codes {t : Thumbnail} (h : t.Fits) :
    ∃ aspectRatio, Codes ofJson? t.toJson { t with aspectRatio } := by
  have hdata : Codes (Json.nullable? bytesOfJson?) (Json.ofOption bytesToJson t.data) t.data :=
    .option rfl fun bytes _ => codes_bytes bytes
  have hrotation := codes_integer h.isWord
  obtain ⟨aspectRatio, hratio⟩ := Json.exists_float?_ofFloat h.isFinite
  exact ⟨aspectRatio,
    by simp [toJson, hdata.isProper, Json.isProper_ofFloat, hrotation.isProper],
    by simp [toJson, ofJson?, hdata.read_eq, hratio, hrotation.read_eq]⟩

end Thumbnail

namespace Loader

theorem Command.codes (command : Command) :
    Codes Message.ofJson? (Message.toJson command) command := by
  cases command <;> exact ⟨rfl, rfl⟩

namespace Event

/-- A thumbnail of the event can be read back. -/
def Fits : Event → Prop
  | captured _ _ => True
  | thumbnail _ picture => picture.Fits

/-- The events are the same, the aspect ratio of a thumbnail apart. -/
inductive Same : Event → Event → Prop
  | captured (key : ImageKey) (date : CaptureDate) : Same (captured key date) (captured key date)
  | thumbnail (key : ImageKey) (picture : Thumbnail) (aspectRatio : Float) :
    Same (thumbnail key picture) (thumbnail key { picture with aspectRatio })

theorem exists_codes {event : Event} (h : event.Fits) :
    ∃ read, Same event read ∧ Codes Message.ofJson? (Message.toJson event) read := by
  change ∃ read, Same event read ∧ Codes ofJson? event.toJson read
  cases event with
  | captured key date =>
    exact ⟨_, .captured key date, by simp [toJson, date.codes.isProper],
      by simp [toJson, ofJson?, Json.text?, date.codes.read_eq]⟩
  | thumbnail key picture =>
    obtain ⟨aspectRatio, hpicture⟩ := Thumbnail.exists_codes h
    exact ⟨_, .thumbnail key picture aspectRatio, by simp [toJson, hpicture.isProper],
      by simp [toJson, ofJson?, Json.text?, hpicture.read_eq]⟩

end Event

end Loader

end PhotoIntake.Metadata
