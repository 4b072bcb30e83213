import PhotoIntake.Image.CaptureDate
import PhotoIntake.Proofs.Calendar.Dates
import PhotoIntake.Proofs.Decimal.Digits
import PhotoIntake.Proofs.Text.Cutting

/-!
# The text of a capture date

A capture date is read in three stages, and each can fail: the text is cut into six fields, the
fields are read as numbers, the numbers have to form a date-time.  Each stage takes exactly what a
relation says, so a date that is written with its numbers padded passes all of them unchanged.

* `ShownIn` and `ofMetadata?_eq_some_iff`: the fields that a text shows.
* `Spells` and `toDateTime?_eq_some_iff`: the date-time that fields spell.
* `shownIn_written` and `spells_ofDateTime`: the text of a date-time shows its padded numbers, and
  these spell it.
-/

namespace PhotoIntake

open Calendar (Date DateTime)
open Text (AllBlank IsTrimmed)

namespace CaptureDate

/-! ## The fields of a text -/

/-- The text can stand between colons. -/
structure IsField (s : String) : Prop where
  ne_empty : s ≠ ""
  no_colon : ':' ∉ s.toList

/-- Three texts with a colon between each two. -/
def joined (x y z : String) : List Char :=
  x.toList ++ ':' :: (y.toList ++ ':' :: z.toList)

/-- The fields of the day as they are written. -/
def dayPart (d : CaptureDate) : List Char :=
  joined d.year d.month d.day

/-- The fields of the time of day as they are written. -/
def timePart (d : CaptureDate) : List Char :=
  joined d.hour d.minute d.second

/-- The text shows the fields: the day, a space and the time of day, with blanks in front of the
day and on both sides of the time. -/
structure ShownIn (d : CaptureDate) (s : List Char) : Prop where
  day_fields : IsField d.year ∧ IsField d.month ∧ IsField d.day
  time_fields : IsField d.hour ∧ IsField d.minute ∧ IsField d.second
  no_space : ' ' ∉ d.dayPart
  day_head : ∀ c ∈ d.dayPart.head?, Text.isBlank c = false
  time_trimmed : IsTrimmed d.timePart
  text : ∃ before between after, AllBlank before ∧ AllBlank between ∧ AllBlank after ∧
    s = before ++ (d.dayPart ++ ' ' :: (between ++ (d.timePart ++ after)))

variable {d : CaptureDate} {t : DateTime}

theorem dayPart_ne_nil (d : CaptureDate) : d.dayPart ≠ [] :=
  List.append_ne_nil_of_right_ne_nil _ (List.cons_ne_nil _ _)

theorem timePart_ne_nil (d : CaptureDate) : d.timePart ≠ [] :=
  List.append_ne_nil_of_right_ne_nil _ (List.cons_ne_nil _ _)

theorem isField_iff {s : String} : IsField s ↔ s.toList.isEmpty = false ∧ ':' ∉ s.toList := by
  constructor
  · rintro ⟨hne, hcolon⟩
    exact ⟨by simpa using hne, hcolon⟩
  · rintro ⟨hne, hcolon⟩
    exact ⟨by simpa using hne, hcolon⟩

/-- Three fields are read from a text that joins them. -/
theorem triple?_eq_some_iff {s : List Char} {x y z : String} :
    triple? s = some (x, y, z) ↔ (IsField x ∧ IsField y ∧ IsField z) ∧ s = joined x y z := by
  simp only [isField_iff]
  constructor
  · intro h
    unfold triple? at h
    split at h
    · next a b c hsplit =>
      split at h
      · exact nomatch h
      · next hempty =>
        obtain ⟨⟨ha, hb, hc⟩, hs⟩ := Text.splitOn_eq_triple_iff.1 hsplit
        simp only [Bool.or_eq_true, not_or, Bool.not_eq_true] at hempty
        obtain ⟨rfl, rfl, rfl⟩ : String.ofList a = x ∧ String.ofList b = y ∧
          String.ofList c = z := by simpa using h
        simp only [joined, String.toList_ofList]
        exact ⟨⟨⟨hempty.1.1, ha⟩, ⟨hempty.1.2, hb⟩, hempty.2, hc⟩, hs⟩
    · exact nomatch h
  · rintro ⟨⟨⟨hx, hxcolon⟩, ⟨hy, hycolon⟩, hz, hzcolon⟩, hs⟩
    have hsplit : s.splitOn ':' = [x.toList, y.toList, z.toList] :=
      Text.splitOn_eq_triple_iff.2 ⟨⟨hxcolon, hycolon, hzcolon⟩, hs⟩
    rw [triple?, hsplit]
    simp [hx, hy, hz]

/-- The text is trimmed and cut at its first space, and what is behind the space is trimmed again. -/
theorem ofMetadata?_eq_some_iff_parts {value : String} :
    ofMetadata? value = some d ↔
      (IsField d.year ∧ IsField d.month ∧ IsField d.day) ∧
        (IsField d.hour ∧ IsField d.minute ∧ IsField d.second) ∧
        ∃ time, Text.trim value.toList = d.dayPart ++ ' ' :: time ∧ ' ' ∉ d.dayPart ∧
          Text.trim time = d.timePart := by
  constructor
  · intro h
    unfold ofMetadata? at h
    dsimp only at h
    split at h
    · exact nomatch h
    · next c time hdrop =>
      split at h
      · next hday htime =>
        obtain rfl := Option.some.inj h
        obtain ⟨hdayFields, htake⟩ := triple?_eq_some_iff.1 hday
        obtain ⟨htimeFields, htime⟩ := triple?_eq_some_iff.1 htime
        obtain ⟨-, hspace, hs⟩ := Text.cut_eq_iff.1 ⟨htake, hdrop⟩
        exact ⟨hdayFields, htimeFields, time, hs, hspace, htime⟩
      · exact nomatch h
  · rintro ⟨hdayFields, htimeFields, time, hs, hspace, htime⟩
    obtain ⟨htake, hdrop⟩ := Text.cut_eq_iff.2 ⟨rfl, hspace, hs⟩
    rw [ofMetadata?]
    simp only [hdrop, triple?_eq_some_iff.2 ⟨hdayFields, htake⟩,
      triple?_eq_some_iff.2 ⟨htimeFields, htime⟩]

/-- The fields of a text are those that it shows. -/
theorem ofMetadata?_eq_some_iff {value : String} :
    ofMetadata? value = some d ↔ d.ShownIn value.toList := by
  rw [ofMetadata?_eq_some_iff_parts]
  constructor
  · rintro ⟨hdayFields, htimeFields, time, hvalue, hspace, htime⟩
    obtain ⟨htrimmed, before, after, hbefore, hafter, hvalue⟩ := Text.trim_eq_iff.1 hvalue
    obtain ⟨htimeTrimmed, between, behind, hbetween, hbehind, rfl⟩ := Text.trim_eq_iff.1 htime
    refine ⟨hdayFields, htimeFields, hspace, fun c hc => htrimmed.head c ?_, htimeTrimmed,
      before, between, behind ++ after, hbefore, hbetween, ?_, by simp [hvalue]⟩
    · rwa [List.head?_append_of_ne_nil _ d.dayPart_ne_nil]
    · exact fun c hc => (List.mem_append.1 hc).elim (hbehind c) (hafter c)
  · rintro ⟨hdayFields, htimeFields, hspace, hhead, htrimmed, before, between, after, hbefore,
      hbetween, hafter, hvalue⟩
    have hvalueTrimmed : IsTrimmed (d.dayPart ++ (' ' :: between ++ d.timePart)) :=
      (Text.isTrimmed_append_iff d.dayPart_ne_nil _ d.timePart_ne_nil).2 ⟨hhead, htrimmed.last⟩
    refine ⟨hdayFields, htimeFields, between ++ d.timePart, ?_, hspace, ?_⟩
    · exact Text.trim_eq_iff.2 ⟨hvalueTrimmed, before, after, hbefore, hafter, by simp [hvalue]⟩
    · exact Text.trim_eq_iff.2 ⟨htrimmed, between, [], hbetween, by simp [AllBlank], by simp⟩

/-! ## The numbers of the fields -/

/-- The fields spell the numbers of the date-time, which has no part of a second. -/
structure Spells (d : CaptureDate) (t : DateTime) : Prop where
  year : Decimal.SpellsSigned d.year.toList t.date.year
  month : Decimal.Spells d.month.toList t.date.month
  day : Decimal.Spells d.day.toList t.date.day
  hour : Decimal.Spells d.hour.toList t.time.hour
  minute : Decimal.Spells d.minute.toList t.time.minute
  second : Decimal.Spells d.second.toList t.time.second
  nano : t.time.nano = 0

/-- The date-time of fields is the one that they spell. -/
theorem toDateTime?_eq_some_iff : d.toDateTime? = some t ↔ d.Spells t := by
  simp only [toDateTime?, Option.bind_eq_bind, Option.bind_eq_some_iff, Option.pure_def,
    Option.some.injEq, Decimal.readSigned32?_eq_some_iff, Decimal.readBelow?_eq_some_iff,
    Date.of?_eq_some_iff, Calendar.Time.of?_eq_some_iff]
  constructor
  · rintro ⟨_, ⟨hyear, -⟩, _, ⟨hmonth, -⟩, _, ⟨hday, -⟩, _, ⟨hhour, -⟩, _, ⟨hminute, -⟩, _,
      ⟨hsecond, -⟩, date, ⟨rfl, rfl, rfl⟩, time, ⟨rfl, rfl, rfl, hnano⟩, rfl⟩
    exact ⟨hyear, hmonth, hday, hhour, hminute, hsecond, hnano.symm⟩
  · rintro ⟨hyear, hmonth, hday, hhour, hminute, hsecond, hnano⟩
    -- The numbers of a date-time are far below the bounds of the words that are read.
    obtain ⟨hfirst, hlast, -, hmonths, -, hdays⟩ := t.date.valid
    obtain ⟨hhours, hminutes, hseconds, -⟩ := t.time.valid
    have hlength := Calendar.monthLength_le t.date.year t.date.month
    have hword : Decimal.wordBound 32 = 4294967296 := rfl
    have hhalf : Decimal.wordBound 31 = 2147483648 := rfl
    rw [Calendar.firstYear] at hfirst
    rw [Calendar.lastYear] at hlast
    refine ⟨_, ⟨hyear, by omega, by omega⟩, _, ⟨hmonth, by omega⟩, _, ⟨hday, by omega⟩, _,
      ⟨hhour, by omega⟩, _, ⟨hminute, by omega⟩, _, ⟨hsecond, by omega⟩, t.date, ⟨rfl, rfl, rfl⟩,
      t.time, ⟨rfl, rfl, rfl, hnano.symm⟩, rfl⟩

/-! ## Dates that are written -/

/-- The numbers of a date-time, each padded to the width of its field. -/
def ofDateTime (t : DateTime) : CaptureDate :=
  { year := Decimal.padded 4 t.date.year.toNat
    month := Decimal.padded 2 t.date.month
    day := Decimal.padded 2 t.date.day
    hour := Decimal.padded 2 t.time.hour
    minute := Decimal.padded 2 t.time.minute
    second := Decimal.padded 2 t.time.second }

/-- The text `YYYY:MM:DD HH:MM:SS` of fields, with texts around it and behind its space. -/
def written (d : CaptureDate) (before between after : String) : String :=
  before ++ d.year ++ ":" ++ d.month ++ ":" ++ d.day ++ " " ++ between ++
    d.hour ++ ":" ++ d.minute ++ ":" ++ d.second ++ after

theorem isField_padded (width n : Nat) : IsField (Decimal.padded width n) := by
  rw [isField_iff, Decimal.toList_padded, List.isEmpty_eq_false_iff]
  exact ⟨Decimal.paddedDigits_ne_nil width n,
    fun hcolon => absurd (Decimal.isDigit_of_mem_paddedDigits hcolon) (by decide)⟩

/-- There are no blanks in padded numbers and the colons between them. -/
theorem isBlank_of_mem_joined {width₁ width₂ width₃ n₁ n₂ n₃ : Nat} {c : Char}
    (h : c ∈ joined (Decimal.padded width₁ n₁) (Decimal.padded width₂ n₂)
      (Decimal.padded width₃ n₃)) : Text.isBlank c = false := by
  simp only [joined, Decimal.toList_padded, List.mem_append, List.mem_cons] at h
  rcases h with h | rfl | h | rfl | h
  · exact Text.isBlank_of_isDigit (Decimal.isDigit_of_mem_paddedDigits h)
  · decide
  · exact Text.isBlank_of_isDigit (Decimal.isDigit_of_mem_paddedDigits h)
  · decide
  · exact Text.isBlank_of_isDigit (Decimal.isDigit_of_mem_paddedDigits h)

/-- A text shows the padded numbers that it was written with. -/
theorem shownIn_written (t : DateTime) {before between after : String}
    (hbefore : AllBlank before.toList) (hbetween : AllBlank between.toList)
    (hafter : AllBlank after.toList) :
    (ofDateTime t).ShownIn ((ofDateTime t).written before between after).toList where
  day_fields := ⟨isField_padded _ _, isField_padded _ _, isField_padded _ _⟩
  time_fields := ⟨isField_padded _ _, isField_padded _ _, isField_padded _ _⟩
  no_space h := absurd (isBlank_of_mem_joined h) (by decide)
  day_head _ hc := isBlank_of_mem_joined (List.mem_of_mem_head? hc)
  time_trimmed := ⟨fun _ hc => isBlank_of_mem_joined (List.mem_of_mem_head? hc),
    fun _ hc => isBlank_of_mem_joined (List.mem_of_mem_getLast? hc)⟩
  text := ⟨before.toList, between.toList, after.toList, hbefore, hbetween, hafter, by
    simp [written, dayPart, timePart, joined]⟩

/-- Padded numbers spell the date-time, unless its year has a sign. -/
theorem spells_ofDateTime (hyear : 0 ≤ t.date.year) (hnano : t.time.nano = 0) :
    (ofDateTime t).Spells t := by
  have hspells (width n : Nat) : Decimal.Spells (Decimal.padded width n).toList n := by
    rw [Decimal.toList_padded]
    exact Decimal.spells_paddedDigits width n
  exact ⟨Or.inl ⟨_, hspells _ _, Int.toNat_of_nonneg hyear⟩, hspells _ _, hspells _ _,
    hspells _ _, hspells _ _, hspells _ _, hnano⟩

end CaptureDate

end PhotoIntake
