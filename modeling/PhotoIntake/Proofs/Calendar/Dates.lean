import PhotoIntake.Calendar.DateTime
import Mathlib.Tactic.Common
import Mathlib.Tactic.SplitIfs

/-!
# Dates of the calendar

A date is its three numbers, and dates are in the order of these: years first, then months, then
days.

* `monthLength_le` and `Date.of?_eq_some_iff`: the numbers of a date.
* `Date.lt_irrefl`, `Date.lt_trans` and `Date.eq_of_not_lt`: of two dates one is earlier, or they
  are the same.
* `Date.not_lt_trans`: the same for dates that are not later.
* `Date.not_lt_earliest`: the calendar begins with a date.
* `Date.isSome_pred?_iff` and `DateTime.isSome_dayBefore?_iff`: every other date has one before it.
* `Time.of?_eq_some_iff`: the numbers of a time of day.
-/

namespace PhotoIntake.Calendar

theorem monthLength_le (year : Int) (month : Nat) : monthLength year month ≤ 31 := by
  unfold monthLength
  split_ifs <;> omega

theorem monthLength_pos (year : Int) (month : Nat) : 1 ≤ monthLength year month := by
  unfold monthLength
  split_ifs <;> omega

namespace Date

theorem isSome_of?_iff {year : Int} {month day : Nat} :
    (of? year month day).isSome = true ↔ IsDate year month day := by
  unfold of?
  split
  · next h => exact iff_of_true rfl h
  · next h => exact iff_of_false (by simp) h

theorem of?_eq_some_iff {year : Int} {month day : Nat} {date : Date} :
    of? year month day = some date ↔ year = date.year ∧ month = date.month ∧ day = date.day := by
  unfold of?
  split
  · next h =>
    obtain ⟨year', month', day', hvalid⟩ := date
    simp
  · next h =>
    constructor
    · exact fun heq => nomatch heq
    · rintro ⟨rfl, rfl, rfl⟩
      exact absurd date.valid h

variable {a b c : Date}

theorem eq_iff : a = b ↔ a.year = b.year ∧ a.month = b.month ∧ a.day = b.day := by
  refine ⟨fun h => h ▸ ⟨rfl, rfl, rfl⟩, ?_⟩
  rintro ⟨hyear, hmonth, hday⟩
  obtain ⟨year, month, day, hvalid⟩ := a
  obtain ⟨year', month', day', hvalid'⟩ := b
  obtain rfl : year = year' := hyear
  obtain rfl : month = month' := hmonth
  obtain rfl : day = day' := hday
  rfl

theorem lt_iff : a < b ↔ a.year < b.year ∨ a.year = b.year ∧
    (a.month < b.month ∨ a.month = b.month ∧ a.day < b.day) := by
  show a.before b = true ↔ _
  simp only [before, Bool.or_eq_true, Bool.and_eq_true, decide_eq_true_eq, beq_iff_eq]

theorem lt_irrefl (a : Date) : ¬ a < a := by
  rw [lt_iff]
  omega

theorem lt_trans (hab : a < b) (hbc : b < c) : a < c := by
  rw [lt_iff] at hab hbc ⊢
  omega

theorem not_lt_trans (hab : ¬ b < a) (hbc : ¬ c < b) : ¬ c < a := by
  rw [lt_iff] at hab hbc ⊢
  omega

theorem eq_of_not_lt (hab : ¬ a < b) (hba : ¬ b < a) : a = b := by
  rw [lt_iff] at hab hba
  rw [eq_iff]
  omega

/-- The first day of the calendar. -/
def earliest : Date :=
  ⟨firstYear, 1, 1, by decide⟩

theorem not_lt_earliest (a : Date) : ¬ a < earliest := by
  obtain ⟨hyear, -, hmonth, -, hday, -⟩ := a.valid
  rw [lt_iff]
  show ¬ (a.year < firstYear ∨ a.year = firstYear ∧ (a.month < 1 ∨ a.month = 1 ∧ a.day < 1))
  omega

/-- Only the first date has none before it. -/
theorem isSome_pred?_iff {d : Date} : d.pred?.isSome = true ↔ d ≠ earliest := by
  obtain ⟨hfirst, hlast, hmonth, hmonth', hday, hday'⟩ := d.valid
  rw [ne_eq, eq_iff]
  show _ ↔ ¬ (d.year = firstYear ∧ d.month = 1 ∧ d.day = 1)
  unfold pred?
  split_ifs with hdays hmonths
  · refine iff_of_true (isSome_of?_iff.2 ⟨hfirst, hlast, hmonth, hmonth', ?_, ?_⟩) ?_ <;> omega
  · have hlength := monthLength_pos d.year (d.month - 1)
    have hbefore := Nat.le_refl (monthLength d.year (d.month - 1))
    refine iff_of_true (isSome_of?_iff.2 ⟨hfirst, hlast, ?_, ?_, hlength, hbefore⟩) ?_ <;> omega
  · have hlength : monthLength (d.year - 1) 12 = 31 := rfl
    rw [isSome_of?_iff, IsDate, hlength]
    omega

end Date

/-- Only on the first date can the moment a day earlier be missing, and not even there for the leap
second at its end. -/
theorem DateTime.isSome_dayBefore?_iff {t : DateTime} :
    t.dayBefore?.isSome = true ↔ t.date ≠ Date.earliest ∨
      t.time.isLeap = true ∧ t.time.hour = 23 ∧ t.time.minute = 59 := by
  obtain ⟨hhour, hminute, -⟩ := t.time.valid
  rw [← Date.isSome_pred?_iff]
  unfold dayBefore?
  dsimp only
  split_ifs with hleap hlast
  · exact iff_of_true rfl (Or.inr ⟨hleap, by omega⟩)
  · simp only [Option.isSome_map]
    refine ⟨Or.inl, fun h => h.resolve_right fun h => hlast ?_⟩
    omega
  · simp only [Option.isSome_map, hleap, Bool.false_eq_true, false_and, or_false]

theorem Time.of?_eq_some_iff {hour minute second nano : Nat} {t : Time} :
    of? hour minute second nano = some t ↔
      hour = t.hour ∧ minute = t.minute ∧ second = t.second ∧ nano = t.nano := by
  unfold of?
  split
  · next h =>
    obtain ⟨hour', minute', second', nano', hvalid⟩ := t
    simp
  · next h =>
    constructor
    · exact fun heq => nomatch heq
    · rintro ⟨rfl, rfl, rfl, rfl⟩
      exact absurd t.valid h

end PhotoIntake.Calendar
