import PhotoIntake.Calendar.DateTime
import PhotoIntake.Proofs.Calendar.Dates

/-!
# Dates and times on one scale

Days have numbers, and moments are seconds since the start of 1970.  A date-time is compared field
by field, years first, and that has to be the order of the numbers: no month is longer than the way
to the next one, and no year either.

* `daysBeforeMonth_add_monthLength` and `yearStart_succ`: where months and years begin.
* `Date.dayNumber_lt_iff`: days are in the order of their numbers.
* `DateTime.timestamp_lt_iff`: so are moments in the order of their seconds.
-/

namespace PhotoIntake.Calendar

/-! ## Years and months -/

/-- The number of days before a year. -/
def yearStart (year : Int) : Int :=
  365 * (year - 1) + (year - 1) / 4 - (year - 1) / 100 + (year - 1) / 400

/-- The number of days of a year. -/
def yearLength (year : Int) : Nat :=
  if isLeap year then 366 else 365

theorem isLeap_eq_true_iff {year : Int} :
    isLeap year = true ↔ year % 4 = 0 ∧ (year % 100 ≠ 0 ∨ year % 400 = 0) := by
  simp [isLeap]

/-- A year begins where the one before it ends. -/
theorem yearStart_succ (year : Int) : yearStart (year + 1) = yearStart year + yearLength year := by
  unfold yearStart yearLength
  by_cases hleap : isLeap year = true
  · rw [if_pos hleap]
    have hdivides := isLeap_eq_true_iff.1 hleap
    omega
  · rw [if_neg hleap]
    rw [isLeap_eq_true_iff] at hleap
    omega

theorem yearStart_mono {year later : Int} (h : year ≤ later) :
    yearStart year ≤ yearStart later := by
  unfold yearStart
  omega

namespace Date

/-- A month begins where the one before it ends. -/
theorem daysBeforeMonth_add_monthLength (year : Int) {month : Nat} (h : 1 ≤ month) :
    daysBeforeMonth year (month + 1) = daysBeforeMonth year month + monthLength year month := by
  obtain ⟨before, rfl⟩ : ∃ before, month = before + 1 := ⟨month - 1, by omega⟩
  simp [daysBeforeMonth, List.range_succ]

theorem daysBeforeMonth_mono (year : Int) {month later : Nat} (hmonth : 1 ≤ month)
    (h : month ≤ later) : daysBeforeMonth year month ≤ daysBeforeMonth year later := by
  induction h with
  | refl => exact Nat.le_refl _
  | step hle ih =>
    rw [daysBeforeMonth_add_monthLength year (Nat.le_trans hmonth hle)]
    exact Nat.le_trans ih (Nat.le_add_right _ _)

/-- The twelve months fill the year. -/
theorem daysBeforeMonth_thirteen (year : Int) : daysBeforeMonth year 13 = yearLength year := by
  cases hleap : isLeap year <;>
    simp [daysBeforeMonth, List.range_succ, monthLength, yearLength, hleap]

/-- The day stands behind the start of its year, and before its end. -/
theorem dayOfYear_bounds (d : Date) : 1 ≤ d.dayOfYear ∧ d.dayOfYear ≤ yearLength d.year := by
  obtain ⟨-, -, hmonth, hlast, hday, hlength⟩ := d.valid
  have hnext := daysBeforeMonth_add_monthLength d.year hmonth
  have hfull := daysBeforeMonth_mono d.year (Nat.le_add_left 1 d.month)
    (show d.month + 1 ≤ 13 by omega)
  rw [daysBeforeMonth_thirteen] at hfull
  unfold dayOfYear
  omega

theorem dayNumber_eq (d : Date) : d.dayNumber = yearStart d.year + d.dayOfYear :=
  rfl

variable {a b : Date}

theorem dayOfYear_lt (hyear : a.year = b.year)
    (h : a.month < b.month ∨ a.month = b.month ∧ a.day < b.day) : a.dayOfYear < b.dayOfYear := by
  obtain ⟨-, -, hmonth, -, -, hlength⟩ := a.valid
  obtain ⟨-, -, -, -, hday, -⟩ := b.valid
  unfold dayOfYear
  rw [hyear] at hlength ⊢
  rcases h with hlt | ⟨hsame, hlt⟩
  · have hnext := daysBeforeMonth_add_monthLength b.year hmonth
    have hlater := daysBeforeMonth_mono b.year (Nat.le_add_left 1 a.month) hlt
    omega
  · rw [hsame]
    omega

theorem dayNumber_lt (h : a < b) : a.dayNumber < b.dayNumber := by
  rw [dayNumber_eq, dayNumber_eq]
  rcases lt_iff.1 h with hyear | ⟨hyear, hbehind⟩
  · have hend := yearStart_succ a.year
    have hlater := yearStart_mono (show a.year + 1 ≤ b.year by omega)
    have hlast := a.dayOfYear_bounds.2
    have hfirst := b.dayOfYear_bounds.1
    omega
  · have hlt := dayOfYear_lt hyear hbehind
    rw [hyear]
    omega

/-- Days are in the order of their numbers. -/
theorem dayNumber_lt_iff : a.dayNumber < b.dayNumber ↔ a < b := by
  refine ⟨fun hlt => ?_, dayNumber_lt⟩
  by_contra hnot
  by_cases hafter : b < a
  · have hgt := dayNumber_lt hafter
    omega
  · rw [eq_of_not_lt hnot hafter] at hlt
    exact absurd hlt (Int.lt_irrefl _)

theorem dayNumber_inj : a.dayNumber = b.dayNumber ↔ a = b := by
  refine ⟨fun hsame => ?_, fun h => h ▸ rfl⟩
  refine eq_of_not_lt (fun hlt => ?_) fun hlt => ?_
  all_goals
    have hnumber := dayNumber_lt hlt
    omega

end Date

/-! ## Moments -/

/-- The seconds since the start of the day; a leap second is the same as the second before it. -/
def Time.secondOfDay (t : Time) : Nat :=
  t.hour * 3600 + t.minute * 60 + t.second

namespace DateTime

/-- The seconds since the start of 1970. -/
def timestamp (t : DateTime) : Int :=
  (t.date.dayNumber - Date.epoch.dayNumber) * 86400 + t.time.secondOfDay

variable {s t : DateTime}

/-- Moments are in the order of their seconds: days first, then the time on the day. -/
theorem timestamp_lt_iff : s.timestamp < t.timestamp ↔
    s.date < t.date ∨ s.date = t.date ∧ s.time.secondOfDay < t.time.secondOfDay := by
  obtain ⟨hhour, hminute, hsecond, -⟩ := s.time.valid
  obtain ⟨hhour', hminute', hsecond', -⟩ := t.time.valid
  rw [← Date.dayNumber_lt_iff, ← Date.dayNumber_inj]
  unfold timestamp Time.secondOfDay
  omega

example :
    DateTime.timestamp ⟨⟨2024, 3, 1, by decide⟩, ⟨12, 30, 15, 0, by decide⟩⟩ = 1709296215 := by
  decide

end DateTime

end PhotoIntake.Calendar
