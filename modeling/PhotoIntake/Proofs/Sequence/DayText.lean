import PhotoIntake.Proofs.Calendar.Dates
import PhotoIntake.Proofs.Decimal.Digits
import PhotoIntake.Proofs.Json.RoundTrip
import PhotoIntake.Proofs.Text.Cutting
import PhotoIntake.Sequence.Daily

/-!
# The text of a day

The day of a count is stored as three numbers between dashes.  A reader takes exactly what spells
three such numbers, and the numbers have to form a date.  The number of the year is taken for a word
of 32 bits with a sign, so a number in its upper half comes out as a year below zero.

* `SpellsDay` and `StandsFor`: what a text spells, and the years that a word stands for.
* `readDate?_eq_some_iff`: which day is read from a text.
* `readDate?_dateText_iff`: a day is read back unless its year is below zero.
* `stored_day_iff`: which counts are read, which of them have a year that is not the one spelled, and
  which are read back.
-/

namespace PhotoIntake

open Calendar (Date IsDate)

namespace Sequence.Daily

/-! ## What a text spells -/

/-- The text spells three numbers, with one dash between each two. -/
def SpellsDay (s : String) (year month day : Nat) : Prop :=
  ∃ y m d, s.toList = y ++ '-' :: (m ++ '-' :: d) ∧
    Decimal.Spells y year ∧ Decimal.Spells m month ∧ Decimal.Spells d day

/-- The word of 32 bits stands for the year: it is the year, or it is in the upper half and the year
is below zero by what the word lacks. -/
def StandsFor (word : Nat) (year : Int) : Prop :=
  (word : Int) = year ∨ year < 0 ∧ (word : Int) = year + Decimal.wordBound 32

variable {s : String} {date : Date} {word : Nat}

/-- Numbers have no dashes, so a text is cut where they meet. -/
theorem spellsDay_iff_splitOn {year month day : Nat} :
    SpellsDay s year month day ↔ ∃ y m d, s.toList.splitOn '-' = [y, m, d] ∧
      Decimal.Spells y year ∧ Decimal.Spells m month ∧ Decimal.Spells d day := by
  refine exists_congr fun y => exists_congr fun m => exists_congr fun d => ?_
  refine and_congr_left fun ⟨hy, hm, hd⟩ => ?_
  rw [Text.splitOn_eq_triple_iff, and_iff_right ⟨hy.dash_not_mem, hm.dash_not_mem, hd.dash_not_mem⟩]

/-- The calendar is finite, so a year of it is less than half the bound of a word from zero. -/
theorem standsFor_iff (date : Date) :
    StandsFor word date.year ↔ word < Decimal.wordBound 32 ∧
      (word : Int).bmod (Decimal.wordBound 32) = date.year := by
  obtain ⟨hfirst, hlast, -⟩ := date.valid
  simp only [Calendar.firstYear, Calendar.lastYear] at hfirst hlast
  have hbound : Decimal.wordBound 32 = 4294967296 := rfl
  rw [StandsFor, hbound, Int.bmod_def]
  simp only [Nat.cast_ofNat]
  omega

/-- A day is read from the texts that spell its month, its day and a word for its year. -/
theorem readDate?_eq_some_iff :
    readDate? s = some date ↔
      ∃ word, SpellsDay s word date.month date.day ∧ StandsFor word date.year := by
  simp only [standsFor_iff, spellsDay_iff_splitOn]
  constructor
  · intro h
    unfold readDate? at h
    split at h
    · next y m d hsplit =>
      obtain ⟨word, hword, h⟩ := Option.bind_eq_some_iff.1 h
      obtain ⟨month, hmonth, h⟩ := Option.bind_eq_some_iff.1 h
      obtain ⟨day, hday, hdate⟩ := Option.bind_eq_some_iff.1 h
      obtain ⟨hyear, rfl, rfl⟩ := Date.of?_eq_some_iff.1 hdate
      rw [Decimal.readBelow?_eq_some_iff] at hword hmonth hday
      exact ⟨word, ⟨y, m, d, hsplit, hword.1, hmonth.1, hday.1⟩, hword.2, hyear⟩
    · exact nomatch h
  · rintro ⟨word, ⟨y, m, d, hsplit, hy, hm, hd⟩, hword, hyear⟩
    obtain ⟨-, -, -, hmonth, -, hday⟩ := date.valid
    have hlength := Calendar.monthLength_le date.year date.month
    have hbound : Decimal.wordBound 32 = 4294967296 := rfl
    rw [readDate?, hsplit]
    refine Option.bind_eq_some_iff.2 ⟨_, Decimal.readBelow?_eq_some_iff.2 ⟨hy, hword⟩, ?_⟩
    refine Option.bind_eq_some_iff.2 ⟨_, Decimal.readBelow?_eq_some_iff.2 ⟨hm, by omega⟩, ?_⟩
    refine Option.bind_eq_some_iff.2 ⟨_, Decimal.readBelow?_eq_some_iff.2 ⟨hd, by omega⟩, ?_⟩
    exact Date.of?_eq_some_iff.2 ⟨hyear, rfl, rfl⟩

/-! ## What is written -/

theorem toList_dateText (date : Date) :
    (dateText date).toList = (if date.year < 0 then ['-'] else []) ++
      (Decimal.digits date.year.natAbs ++ '-' ::
        (Decimal.digits date.month ++ '-' :: Decimal.digits date.day)) := by
  by_cases hyear : date.year < 0 <;> simp [dateText, yearText, hyear, Decimal.text]

/-- A day is read back unless its year is below zero: such a year has a dash of its own. -/
theorem readDate?_dateText_iff : readDate? (dateText date) = some date ↔ 0 ≤ date.year := by
  rw [readDate?_eq_some_iff]
  constructor
  · rintro ⟨word, ⟨y, m, d, hs, hy, -, -⟩, -⟩
    by_contra hyear
    rw [toList_dateText, if_pos (by omega)] at hs
    cases y with
    | nil => exact hy.ne_nil rfl
    | cons c y =>
      obtain rfl : '-' = c := (List.cons.inj hs).1
      exact hy.dash_not_mem List.mem_cons_self
  · intro hyear
    refine ⟨date.year.natAbs, ⟨_, _, _, ?_, Decimal.spells_digits _, Decimal.spells_digits _,
      Decimal.spells_digits _⟩, Or.inl (Int.natAbs_of_nonneg hyear)⟩
    rw [toList_dateText, if_neg (by omega), List.nil_append]

/-! ## The count of a day -/

variable {d : Daily} {count : Nat}

/-- A count is read if its day is and it fits a word. -/
theorem ofJson?_pair_eq_some_iff :
    ofJson? (.array [.text s, Json.ofNat count]) = some d ↔
      readDate? s = some d.date ∧ count = d.count ∧ d.count < Decimal.wordBound 32 := by
  rw [← Json.natBelow?_ofNat_eq_some_iff]
  constructor
  · intro h
    obtain ⟨date, hdate, h⟩ := Option.bind_eq_some_iff.1 h
    obtain ⟨n, hcount, h⟩ := Option.bind_eq_some_iff.1 h
    obtain rfl := Option.some.inj h
    exact ⟨hdate, hcount⟩
  · rintro ⟨hdate, hcount⟩
    exact Option.bind_eq_some_iff.2 ⟨_, hdate, Option.bind_eq_some_iff.2 ⟨_, hcount, rfl⟩⟩

theorem ofJson?_toJson_eq_some_iff :
    ofJson? d.toJson = some d ↔ 0 ≤ d.date.year ∧ d.count < Decimal.wordBound 32 := by
  rw [toJson, ofJson?_pair_eq_some_iff, readDate?_dateText_iff, eq_self, true_and]

/-- A year below zero is read where the word of a year stands for one. -/
theorem exists_year_neg_iff :
    (∃ d, ofJson? (.array [.text s, Json.ofNat count]) = some d ∧ d.date.year < 0) ↔
      count < Decimal.wordBound 32 ∧ ∃ word month day, SpellsDay s word month day ∧
        word < Decimal.wordBound 32 ∧ IsDate ((word : Int) - Decimal.wordBound 32) month day := by
  simp only [ofJson?_pair_eq_some_iff, readDate?_eq_some_iff]
  constructor
  · rintro ⟨d, ⟨⟨word, hspells, hword⟩, rfl, hcount⟩, hyear⟩
    have hsame : (word : Int) = d.date.year + Decimal.wordBound 32 := by
      rcases hword with hsame | ⟨-, hsame⟩
      · omega
      · exact hsame
    refine ⟨hcount, word, _, _, hspells, by omega, ?_⟩
    rw [hsame, Int.add_sub_cancel]
    exact d.date.valid
  · rintro ⟨hcount, word, month, day, hspells, hword, hvalid⟩
    have hyear : (word : Int) - Decimal.wordBound 32 < 0 := by omega
    have hword : StandsFor word ((word : Int) - Decimal.wordBound 32) :=
      Or.inr ⟨hyear, (Int.sub_add_cancel _ _).symm⟩
    exact ⟨⟨⟨_, month, day, hvalid⟩, count⟩, ⟨⟨word, hspells, hword⟩, rfl, hcount⟩, hyear⟩

/-- A stored count is read if and only if its text spells its day, the year by a word that stands
for it, and its value fits a word.  A year below zero, which no text spells, is read if and only if
the word of the year stands for one.  A count that was written is read back if and only if its year
is not below zero and it fits a word. -/
theorem stored_day_iff (s : String) (count : Nat) (d : Daily) :
    (ofJson? (.array [.text s, Json.ofNat count]) = some d ↔
      (∃ word, SpellsDay s word d.date.month d.date.day ∧ StandsFor word d.date.year) ∧
        count = d.count ∧ d.count < Decimal.wordBound 32) ∧
    ((∃ d, ofJson? (.array [.text s, Json.ofNat count]) = some d ∧ d.date.year < 0) ↔
      count < Decimal.wordBound 32 ∧ ∃ word month day, SpellsDay s word month day ∧
        word < Decimal.wordBound 32 ∧ IsDate ((word : Int) - Decimal.wordBound 32) month day) ∧
    (ofJson? d.toJson = some d ↔ 0 ≤ d.date.year ∧ d.count < Decimal.wordBound 32) := by
  refine ⟨?_, exists_year_neg_iff, ofJson?_toJson_eq_some_iff⟩
  rw [ofJson?_pair_eq_some_iff, readDate?_eq_some_iff]

/-- A text is read as a day of the year before zero that it does not spell. -/
theorem stored_day_unspelled :
    ofJson? (.array [.text "4294967295-1-1", Json.ofNat 7]) = some ⟨⟨-1, 1, 1, by decide⟩, 7⟩ ∧
    ¬ ∀ (s : String) (count : Nat) (d : Daily),
      ofJson? (.array [.text s, Json.ofNat count]) = some d →
        ∃ year : Nat, SpellsDay s year d.date.month d.date.day ∧ (year : Int) = d.date.year := by
  have hread : ofJson? (.array [.text "4294967295-1-1", Json.ofNat 7]) =
      some ⟨⟨-1, 1, 1, by decide⟩, 7⟩ := by decide +kernel
  refine ⟨hread, fun hall => ?_⟩
  obtain ⟨year, -, hyear⟩ := hall _ _ _ hread
  exact absurd hyear (by simp only; omega)

end Sequence.Daily

end PhotoIntake
