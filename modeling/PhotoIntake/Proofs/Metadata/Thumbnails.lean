import PhotoIntake.Metadata.Tags
import PhotoIntake.Proofs.Text.Base64

/-!
# The thumbnail among tags

Two tags can hold a thumbnail, and one of them is preferred.  The tag is chosen before it is decoded:
the preferred tag is taken if it is a text, whatever it says, and the other one only if it is not.
So a preferred text without bytes hides the bytes of the other tag.

* `bytesOf?_eq_some_iff`: which texts hold bytes.
* `data_ofTags_eq_some_iff`: the bytes that are found.
* `ofTags_eq_absent_iff`: where there are none, nothing is said about size and rotation either.
* `found_iff_not_hidden`: the first bytes on offer are found unless they are hidden.
* `thumbnail_found`: all of it for one object of tags.
-/

namespace PhotoIntake.Metadata

open Text.Base64 (encode decode?_eq_some_iff not_mem_encode)

namespace Thumbnail

/-! ## Texts that hold bytes -/

/-- The text holds the bytes: it is their text in base 64, with or without the mark in front, and
there is at least one of them. -/
def Holds (text : String) (bytes : List UInt8) : Prop :=
  bytes ≠ [] ∧ (text.toList = encode bytes ∨ text.toList = encodedMark ++ encode bytes)

variable {text : String} {bytes : List UInt8}

/-- The mark has a colon, so it is not the beginning of a text in base 64. -/
theorem not_mark_isPrefix_encode (bytes : List UInt8) : ¬ encodedMark <+: encode bytes := by
  rintro ⟨rest, h⟩
  have hcolon : ':' ∉ encode bytes := not_mem_encode (by decide) (by decide) bytes
  rw [← h] at hcolon
  exact hcolon (List.mem_append_left _ (by decide))

/-- A mark in front of the bytes is taken off, and nothing else that is in front of them. -/
theorem bytesOf?_eq_some_iff : bytesOf? text = some bytes ↔ Holds text bytes := by
  unfold bytesOf? Holds
  simp only [Option.filter_eq_some_iff, decode?_eq_some_iff, Bool.not_eq_true',
    List.isEmpty_eq_false_iff, List.isPrefixOf_iff_prefix]
  rw [and_comm]
  refine and_congr_right fun _ => ?_
  split
  · next hmark =>
    obtain ⟨body, hbody⟩ := hmark
    have hplain : encodedMark ++ body ≠ encode bytes := fun h =>
      not_mark_isPrefix_encode bytes ⟨body, h⟩
    rw [← hbody, List.drop_left, List.append_cancel_left_eq, or_iff_right hplain]
  · next hmark =>
    have hmarked : text.toList ≠ encodedMark ++ encode bytes := fun h => hmark ⟨_, h.symm⟩
    rw [or_iff_left hmarked]

end Thumbnail

namespace Tags

/-! ## The two tags -/

/-- The tag is a text that holds the bytes. -/
def Offers (tags : Tags) (tag : Tag) (bytes : List UInt8) : Prop :=
  ∃ text, tags.text? tag = some text ∧ Thumbnail.Holds text bytes

theorem offers_iff {tags : Tags} {tag : Tag} {bytes : List UInt8} :
    tags.Offers tag bytes ↔ (tags.text? tag).bind Thumbnail.bytesOf? = some bytes := by
  simp only [Offers, Option.bind_eq_some_iff, Thumbnail.bytesOf?_eq_some_iff]

/-- The bytes are those of the preferred tag, or those of the other one if the preferred tag offers
none. -/
def FirstOffer (tags : Tags) (bytes : List UInt8) : Prop :=
  tags.Offers .thumbnailImage bytes ∨
    (∀ other, ¬ tags.Offers .thumbnailImage other) ∧ tags.Offers .thumbnailTiff bytes

/-- The preferred tag is a text that holds no bytes, and the other tag offers some. -/
def Hidden (tags : Tags) : Prop :=
  tags.text? .thumbnailImage ≠ none ∧ (∀ other, ¬ tags.Offers .thumbnailImage other) ∧
    ∃ bytes, tags.Offers .thumbnailTiff bytes

end Tags

namespace Thumbnail

variable {tags : Tags} {bytes : List UInt8}

/-- The first text is taken, and either it holds bytes or there is no thumbnail. -/
theorem ofTags_cases (tags : Tags) :
    let found := ((tags.text? .thumbnailImage).or (tags.text? .thumbnailTiff)).bind bytesOf?
    (ofTags tags).data = found ∧ (found = none → ofTags tags = absent) := by
  intro found
  have hchosen : [Tag.thumbnailImage, .thumbnailTiff].findSome? tags.text? =
      (tags.text? .thumbnailImage).or (tags.text? .thumbnailTiff) := by
    cases himage : tags.text? .thumbnailImage <;> simp [himage]
  unfold ofTags
  rw [hchosen]
  dsimp only
  split
  · next hnone => exact ⟨hnone.symm, fun _ => rfl⟩
  · next bytes hsome => exact ⟨hsome.symm, fun hnone => nomatch hsome.symm.trans hnone⟩

theorem data_ofTags_eq_some_iff :
    (ofTags tags).data = some bytes ↔
      tags.Offers .thumbnailImage bytes ∨
        tags.text? .thumbnailImage = none ∧ tags.Offers .thumbnailTiff bytes := by
  rw [(ofTags_cases tags).1, Tags.offers_iff, Tags.offers_iff]
  cases tags.text? .thumbnailImage with
  | none => simp
  | some text => simp

/-- Without bytes there is no size and no rotation. -/
theorem ofTags_eq_absent_iff : ofTags tags = absent ↔ (ofTags tags).data = none := by
  obtain ⟨hdata, habsent⟩ := ofTags_cases tags
  constructor
  · intro h
    rw [h]
    rfl
  · intro h
    exact habsent (hdata.symm.trans h)

/-- The first bytes on offer are found, unless they are hidden. -/
theorem found_iff_not_hidden (tags : Tags) :
    (∀ bytes, (ofTags tags).data = some bytes ↔ tags.FirstOffer bytes) ↔ ¬ tags.Hidden := by
  constructor
  · rintro hfound ⟨htext, hnone, bytes, hoffer⟩
    rcases data_ofTags_eq_some_iff.1 ((hfound bytes).2 (Or.inr ⟨hnone, hoffer⟩)) with h | h
    · exact hnone bytes h
    · exact htext h.1
  · intro hhidden bytes
    rw [data_ofTags_eq_some_iff, Tags.FirstOffer]
    refine or_congr_right (and_congr_left fun hoffer => ?_)
    constructor
    · rintro hno other ⟨text, htext, -⟩
      exact nomatch hno.symm.trans htext
    · intro hnone
      by_contra htext
      exact hhidden ⟨htext, hnone, bytes, hoffer⟩

/-- A thumbnail has the bytes of the preferred tag, or those of the other tag if the preferred one is
no text.  These are the first bytes on offer, if and only if they are not hidden.  Where there are no
bytes there is no size and no rotation. -/
theorem thumbnail_found (tags : Tags) :
    (∀ bytes, (ofTags tags).data = some bytes ↔
      tags.Offers .thumbnailImage bytes ∨
        tags.text? .thumbnailImage = none ∧ tags.Offers .thumbnailTiff bytes) ∧
    ((∀ bytes, (ofTags tags).data = some bytes ↔ tags.FirstOffer bytes) ↔ ¬ tags.Hidden) ∧
    (ofTags tags = absent ↔ (ofTags tags).data = none) :=
  ⟨fun _ => data_ofTags_eq_some_iff, found_iff_not_hidden tags, ofTags_eq_absent_iff⟩

/-- A preferred text that cannot be decoded hides the bytes of the other tag. -/
theorem thumbnail_hidden :
    let tags : Tags := ⟨[(Tag.thumbnailImage.name, .text "base64:!"),
      (Tag.thumbnailTiff.name, .text "base64:AQID")]⟩
    tags.FirstOffer [1, 2, 3] ∧ ofTags tags = absent ∧
      ¬ ∀ (tags : Tags) (bytes : List UInt8),
        (ofTags tags).data = some bytes ↔ tags.FirstOffer bytes := by
  intro tags
  have hnone : (tags.text? .thumbnailImage).bind bytesOf? = none := by decide +kernel
  have hsome : (tags.text? .thumbnailTiff).bind bytesOf? = some [1, 2, 3] := by decide +kernel
  have hfirst : tags.FirstOffer [1, 2, 3] :=
    Or.inr ⟨fun _ h => (nomatch hnone.symm.trans (Tags.offers_iff.1 h)), Tags.offers_iff.2 hsome⟩
  have habsent : ofTags tags = absent := (ofTags_cases tags).2 (by decide +kernel)
  refine ⟨hfirst, habsent, fun hall => ?_⟩
  have hdata := (hall tags [1, 2, 3]).2 hfirst
  rw [habsent] at hdata
  exact nomatch hdata

end Thumbnail

end PhotoIntake.Metadata
