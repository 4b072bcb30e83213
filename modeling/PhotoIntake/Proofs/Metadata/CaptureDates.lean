import PhotoIntake.Proofs.Image.CaptureDate
import PhotoIntake.Proofs.Metadata.Loading

/-!
# The moment at which an image was taken

Tags give the moment of an image by a text that shows fields that spell it.  Everything that can be
missing on this way ends in the start of 1970: an image without a date-time gets the fields of that
moment, and an image whose fields form no date-time keeps them but counts as taken then.  In both
cases the date was answered, so the image is loaded.

* `Tags.Gives` and `Tags.Undated`: what tags give, and why they may give nothing.
* `Tags.undated_iff`: these are all the reasons.
* `captureTime_of_gives` and `captureTime_of_undated`: the moment of an image with these tags.
* `capture_date_or_epoch`: all of it, for dates that are written and for any tags.
-/

namespace PhotoIntake.Metadata

open Calendar (DateTime)
open Text (AllBlank)

namespace Tags

/-- The tags give the moment: their text for the date shows fields that spell it. -/
def Gives (tags : Tags) (t : DateTime) : Prop :=
  ∃ (text : String) (date : CaptureDate), tags.text? .captureDate = some text ∧
    date.ShownIn text.toList ∧ date.Spells t

/-- The tags give no moment: there is no tag for the date, or it is not a text, or no fields are
read from the text, or the fields form no date-time. -/
inductive Undated (tags : Tags) : Prop where
  | missing (h : tags.get? .captureDate = none)
  | otherKind {v : Json} (h : tags.get? .captureDate = some v) (hv : v.text? = none)
  | unread {text : String} (h : tags.text? .captureDate = some text)
      (hread : CaptureDate.ofMetadata? text = none)
  | noMoment {date : CaptureDate} (h : tags.HasDate date) (hdate : date.toDateTime? = none)

variable {tags : Tags} {t : DateTime}

theorem gives_iff : tags.Gives t ↔ ∃ date, tags.HasDate date ∧ date.toDateTime? = some t := by
  constructor
  · rintro ⟨text, date, htext, hshown, hspells⟩
    exact ⟨date, ⟨text, htext, CaptureDate.ofMetadata?_eq_some_iff.2 hshown⟩,
      CaptureDate.toDateTime?_eq_some_iff.2 hspells⟩
  · rintro ⟨date, ⟨text, htext, hread⟩, hdate⟩
    exact ⟨text, date, htext, CaptureDate.ofMetadata?_eq_some_iff.1 hread,
      CaptureDate.toDateTime?_eq_some_iff.1 hdate⟩

theorem text?_of_get? {v : Json} (h : tags.get? .captureDate = some v) :
    tags.text? .captureDate = v.text? := by
  rw [text?, h, Option.bind_some]

/-- Tags without a moment lack it for one of the four reasons. -/
theorem undated_iff : tags.Undated ↔ ∀ t, ¬ tags.Gives t := by
  simp only [gives_iff]
  constructor
  · rintro h t ⟨date, hhas, hdate⟩
    obtain ⟨text, htext, hread⟩ := id hhas
    cases h with
    | missing h =>
      rw [text?, h] at htext
      exact nomatch htext
    | otherKind h hv => exact nomatch hv.symm.trans ((text?_of_get? h).symm.trans htext)
    | unread h hnone =>
      obtain rfl := Option.some.inj (h.symm.trans htext)
      exact nomatch hnone.symm.trans hread
    | noMoment h hnone =>
      obtain rfl := (captureDate_eq_of_hasDate h).symm.trans (captureDate_eq_of_hasDate hhas)
      exact nomatch hnone.symm.trans hdate
  · intro h
    cases hget : tags.get? .captureDate with
    | none => exact .missing hget
    | some v =>
      cases hv : v.text? with
      | none => exact .otherKind hget hv
      | some text =>
        have htext : tags.text? .captureDate = some text := (text?_of_get? hget).trans hv
        cases hread : CaptureDate.ofMetadata? text with
        | none => exact .unread htext hread
        | some date =>
          cases hdate : date.toDateTime? with
          | none => exact .noMoment ⟨text, htext, hread⟩ hdate
          | some t => exact absurd ⟨date, ⟨text, htext, hread⟩, hdate⟩ (h t)

/-! ## The image with the date of tags -/

variable (image : Image)

theorem captureTime_of_gives (h : tags.Gives t) :
    (ImageUpdate.apply image (.captured tags.captureDate)).captureTime = t := by
  obtain ⟨date, hhas, hdate⟩ := gives_iff.1 h
  rw [captureDate_eq_of_hasDate hhas, ImageUpdate.apply, Image.captureTime, Option.bind_some,
    hdate, Option.getD_some]

theorem captureTime_of_undated (h : tags.Undated) :
    (ImageUpdate.apply image (.captured tags.captureDate)).captureTime = .epoch := by
  rw [undated_iff] at h
  rw [ImageUpdate.apply, Image.captureTime, Option.bind_some]
  by_cases hhas : ∃ date, tags.HasDate date
  · obtain ⟨date, hhas⟩ := hhas
    have hdate : date.toDateTime? = none := Option.eq_none_iff_forall_ne_some.2 fun t hdate =>
      h t (gives_iff.2 ⟨date, hhas, hdate⟩)
    rw [captureDate_eq_of_hasDate hhas, hdate, Option.getD_none]
  · have hfallback : CaptureDate.fallback.toDateTime? = some .epoch := by decide +kernel
    rw [captureDate_eq_fallback (not_exists.1 hhas), hfallback, Option.getD_some]

end Tags

/-- A moment with a year that is not below zero, written as `YYYY:MM:DD HH:MM:SS` with any blanks
around it and behind its space, is read as its padded numbers, and these are that moment again.
An image that is given the date of tags is loaded.  It was taken at the moment that the tags give.
If they have no tag for it, or one that is not a text, or a text without fields or with fields of no
date-time, it was taken at the start of 1970; and these are all the reasons why tags give none. -/
theorem capture_date_or_epoch :
    (∀ (t : DateTime) (before between after : String), 0 ≤ t.date.year → t.time.nano = 0 →
      AllBlank before.toList → AllBlank between.toList → AllBlank after.toList →
        let date := CaptureDate.ofDateTime t
        CaptureDate.ofMetadata? (date.written before between after) = some date ∧
          date.toDateTime? = some t) ∧
    ∀ (tags : Tags) (image : Image),
      let given := ImageUpdate.apply image (.captured tags.captureDate)
      given.isLoaded = true ∧ (tags.Undated → given.captureTime = .epoch) ∧
        (∀ t, tags.Gives t → given.captureTime = t) ∧ (tags.Undated ↔ ∀ t, ¬ tags.Gives t) := by
  constructor
  · intro t before between after hyear hnano hbefore hbetween hafter date
    exact ⟨CaptureDate.ofMetadata?_eq_some_iff.2
        (CaptureDate.shownIn_written t hbefore hbetween hafter),
      CaptureDate.toDateTime?_eq_some_iff.2 (CaptureDate.spells_ofDateTime hyear hnano)⟩
  · intro tags image given
    exact ⟨rfl, Tags.captureTime_of_undated image, fun t => Tags.captureTime_of_gives image,
      Tags.undated_iff⟩

/-- The last second of the leap day of the year zero between wide blanks, and a leap day of a year
that has none. -/
theorem capture_date_or_epoch_sample :
    let t : DateTime := ⟨⟨0, 2, 29, by decide⟩, ⟨23, 59, 59, 0, by decide⟩⟩
    let tags : Tags := ⟨[(Tag.captureDate.name, .text "2023:02:29 00:00:00")]⟩
    CaptureDate.ofMetadata? "\t\u3000 0000:02:29 \u202823:59:59\n" =
        some ⟨"0000", "02", "29", "23", "59", "59"⟩ ∧
      CaptureDate.toDateTime? ⟨"0000", "02", "29", "23", "59", "59"⟩ = some t ∧
      (ImageUpdate.apply (.ofName "a.jpg" "card/a.jpg") (.captured tags.captureDate)).captureTime =
        .epoch := by
  intro t tags
  obtain ⟨hread, htags⟩ := capture_date_or_epoch
  have hdate : CaptureDate.ofDateTime t = ⟨"0000", "02", "29", "23", "59", "59"⟩ := by
    decide +kernel
  have hwritten : CaptureDate.written ⟨"0000", "02", "29", "23", "59", "59"⟩ "\t\u3000 " "\u2028"
      "\n" = "\t\u3000 0000:02:29 \u202823:59:59\n" := by decide +kernel
  obtain ⟨hfields, hmoment⟩ := hread t "\t\u3000 " "\u2028" "\n" (by decide) (by decide)
    (by decide +kernel) (by decide +kernel) (by decide +kernel)
  rw [hdate] at hfields hmoment
  rw [hwritten] at hfields
  obtain ⟨-, hepoch, -⟩ := htags tags (.ofName "a.jpg" "card/a.jpg")
  have hhas : tags.HasDate ⟨"2023", "02", "29", "00", "00", "00"⟩ :=
    ⟨"2023:02:29 00:00:00", by decide +kernel, by decide +kernel⟩
  exact ⟨hfields, hmoment, hepoch (.noMoment hhas (by decide +kernel))⟩

end PhotoIntake.Metadata
