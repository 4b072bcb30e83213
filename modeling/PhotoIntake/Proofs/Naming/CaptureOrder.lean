import PhotoIntake.Proofs.Calendar.Instants
import PhotoIntake.Proofs.Decimal.Order
import PhotoIntake.Proofs.Image.CaptureDate
import PhotoIntake.Proofs.Naming.Shelves
import Mathlib.Data.String.Basic

/-!
# Names in the order of capture

Where no other template is chosen, an image is named by the date and the time at which it was taken,
from the year down to the second.  All numbers are padded, so the names of a folder are in the order
in which the images were taken, as long as the years have four digits.

* `toList_render_standard`: the name is the stamp of the moment with the extension behind it.
* `stamped_lt_iff`: stamps are in the order of their moments.
* `render_standard_ordered`: so are the names that the template gives.
-/

namespace PhotoIntake

open Calendar (DateTime)
open Decimal (paddedDigits)

namespace Naming

/-- The template that names images where none is chosen. -/
def standardTemplate : Template :=
  builtin standardImageKey "Date and time"
    [captured .yearMonthDay, .text "-", .field (.time .capture .hourMinuteSecond)] .lower

theorem standardTemplate_mem : standardTemplate ∈ builtins .image := by
  simp [builtins, standardTemplate]

/-- The numbers of a moment from the year to the second, a dash in the middle, and a text behind
them. -/
def stamped (t : DateTime) (rest : List Char) : List Char :=
  paddedDigits 4 t.date.year.toNat ++ (paddedDigits 2 t.date.month ++ (paddedDigits 2 t.date.day ++
    '-' :: (paddedDigits 2 t.time.hour ++ (paddedDigits 2 t.time.minute ++
      (paddedDigits 2 t.time.second ++ rest)))))

/-- The year has up to four digits and no sign. -/
def HasPlainYear (t : DateTime) : Prop :=
  0 ≤ t.date.year ∧ t.date.year ≤ 9999

instance (t : DateTime) : Decidable (HasPlainYear t) :=
  inferInstanceAs (Decidable (_ ∧ _))

variable {s t : DateTime}

theorem toList_render_standard {o : Occasion}
    (h : o.image.captured.bind CaptureDate.toDateTime? = some t) (hyear : HasPlainYear t) :
    (standardTemplate.render o .image).toList =
      stamped t (Text.lower o.image.extension).toList := by
  obtain ⟨d, -, hdate⟩ := Option.bind_eq_some_iff.1 h
  have hcapture : o.image.captureTime = t := by rw [Image.captureTime, h, Option.getD_some]
  have hsecond : t.time.shownSecond = t.time.second := by
    rw [Calendar.Time.shownSecond, (CaptureDate.toDateTime?_eq_some_iff.1 hdate).nano, Nat.zero_div,
      Nat.add_zero]
  have hyearText : Calendar.yearText t.date.year = Decimal.padded 4 t.date.year.toNat :=
    if_pos hyear
  simp [Template.render, Template.renderTokens, standardTemplate, builtin, captured, Token.render,
    Field.render, Occasion.dateOf, Occasion.timeOf, DateFormat.pattern, TimeFormat.pattern,
    Calendar.Pattern.text, Calendar.Field.text, Case.apply, hcapture, hsecond, hyearText, stamped,
    Decimal.padded]

/-- Stamps are in the order of their moments. -/
theorem stamped_lt_iff (hs : HasPlainYear s) (ht : HasPlainYear t) (rest : List Char) :
    stamped s rest < stamped t rest ↔ s.timestamp < t.timestamp := by
  obtain ⟨-, -, -, hmonth, -, hday⟩ := s.date.valid
  obtain ⟨-, -, -, hmonth', -, hday'⟩ := t.date.valid
  obtain ⟨hhour, hminute, hsecond, -⟩ := s.time.valid
  obtain ⟨hhour', hminute', hsecond', -⟩ := t.time.valid
  have hlength := Calendar.monthLength_le s.date.year s.date.month
  have hlength' := Calendar.monthLength_le t.date.year t.date.month
  obtain ⟨hfirst, hlast⟩ := hs
  obtain ⟨hfirst', hlast'⟩ := ht
  unfold stamped
  rw [Decimal.paddedDigits_append_lt_iff (by decide) (by omega) (by omega),
    Decimal.paddedDigits_append_lt_iff (by decide) (by omega) (by omega),
    Decimal.paddedDigits_append_lt_iff (by decide) (by omega) (by omega), List.cons_lt_cons_iff,
    Decimal.paddedDigits_append_lt_iff (by decide) (by omega) (by omega),
    Decimal.paddedDigits_append_lt_iff (by decide) (by omega) (by omega),
    Decimal.paddedDigits_append_lt_iff (by decide) (by omega) (by omega)]
  have hdash : ¬ '-' < '-' := by decide
  have hrest : ¬ rest < rest := List.lt_irrefl rest
  rw [DateTime.timestamp_lt_iff, Calendar.Date.lt_iff, Calendar.Date.eq_iff]
  simp only [hdash, hrest, false_or, true_and, and_false, or_false]
  unfold Calendar.Time.secondOfDay
  omega

/-- Two images were taken at moments that their capture dates give, in years of up to four digits,
and their extensions are the same in lower case.  The names that the standard template of any
collection gives them are the same if and only if they were taken in the same second, and of two
names the lesser one is that of the earlier image; whatever else is different, the counters and the
time of the download included. -/
theorem render_standard_ordered (c : Collection) {a b : Occasion}
    (hs : a.image.captured.bind CaptureDate.toDateTime? = some s)
    (ht : b.image.captured.bind CaptureDate.toDateTime? = some t)
    (hsyear : HasPlainYear s) (htyear : HasPlainYear t)
    (hextension : Text.lower a.image.extension = Text.lower b.image.extension) :
    ∃ template, c.get? .image standardImageKey = some template ∧
      (template.render a .image = template.render b .image ↔ s.timestamp = t.timestamp) ∧
      (template.render a .image < template.render b .image ↔ s.timestamp < t.timestamp) ∧
      (template.render b .image < template.render a .image ↔ t.timestamp < s.timestamp) := by
  have hless : standardTemplate.render a .image < standardTemplate.render b .image ↔
      s.timestamp < t.timestamp := by
    rw [String.lt_iff, toList_render_standard hs hsyear, toList_render_standard ht htyear,
      hextension, stamped_lt_iff hsyear htyear]
  have hmore : standardTemplate.render b .image < standardTemplate.render a .image ↔
      t.timestamp < s.timestamp := by
    rw [String.lt_iff, toList_render_standard hs hsyear, toList_render_standard ht htyear,
      hextension, stamped_lt_iff htyear hsyear]
  refine ⟨standardTemplate, c.get?_key_of_mem_builtins standardTemplate_mem, ?_, hless, hmore⟩
  -- Both orders are total, so what is neither less nor more is the same.
  constructor
  · intro hsame
    rw [hsame, iff_false_left (lt_irrefl _)] at hless hmore
    omega
  · intro hsame
    refine le_antisymm (not_lt.1 ?_) (not_lt.1 ?_)
    · rw [hmore]
      omega
    · rw [hless]
      omega

/-- The last second of a leap day and the second behind it, the latter with fields that are not
padded. -/
theorem render_standard_ordered_sample :
    let earlier : CaptureDate := ⟨"2024", "02", "29", "23", "59", "59"⟩
    let later : CaptureDate := ⟨"2024", "3", "1", "0", "0", "0"⟩
    let a : Occasion := ⟨{ Image.ofName "b.JPG" "card/b.JPG" with captured := some earlier },
      .first, .epoch⟩
    let b : Occasion := ⟨{ Image.ofName "a.jpg" "card/a.jpg" with captured := some later },
      Counters.first.advance 12, .epoch⟩
    ∃ template, (⟨⟨"t.json"⟩, [], []⟩ : Collection).get? .image standardImageKey = some template ∧
      template.render a .image < template.render b .image := by
  intro earlier later a b
  let s : DateTime := ⟨⟨2024, 2, 29, by decide⟩, ⟨23, 59, 59, 0, by decide⟩⟩
  let t : DateTime := ⟨⟨2024, 3, 1, by decide⟩, ⟨0, 0, 0, 0, by decide⟩⟩
  have hs : a.image.captured.bind CaptureDate.toDateTime? = some s := by decide +kernel
  have ht : b.image.captured.bind CaptureDate.toDateTime? = some t := by decide +kernel
  obtain ⟨template, hget, -, hless, -⟩ := render_standard_ordered ⟨⟨"t.json"⟩, [], []⟩ hs ht
    (by decide) (by decide) (by decide +kernel)
  exact ⟨template, hget, hless.2 (by decide)⟩

end Naming

end PhotoIntake
