import PhotoIntake.Calendar.Notation
import PhotoIntake.Proofs.Calendar.Dates
import PhotoIntake.Proofs.Decimal.Digits
import PhotoIntake.Proofs.Text.Cutting

/-!
# Date-times are read back

Each number of a written date-time is padded to its width, or ends where a sign follows, so the
reader takes its digits and nothing else.  A second of 60 stands for a leap second, and the places
behind the point are scaled back to nanoseconds.

* `number?_run`: a number is its run of digits.
* `year?_yearText`, `pair?_padded`, `fraction?_fractionText`: the numbers of a date-time.
* `read?_text`: every date-time of the calendar, with either separator.
-/

namespace PhotoIntake.Calendar

open Text (isBlank_of_isDigit trimStart_cons)

/-! ## Numbers -/

namespace Reading

/-- A run of digits is read as a number, where it fills the width or no digit follows. -/
theorem number?_run {width : Nat} {run s : List Char} (hrun : ∀ c ∈ run, c.isDigit = true)
    (hne : run ≠ []) (hwidth : run.length ≤ width)
    (hend : run.length = width ∨ ∀ c ∈ s.head?, c.isDigit = false) :
    number? width (run ++ s) = some (Nat.ofDigitChars 10 run 0, s) := by
  have hhead : ∀ c ∈ (s.take (width - run.length)).head?, c.isDigit = false := by
    rcases hend with hfull | hend
    · rw [hfull, Nat.sub_self, List.take_zero]
      rintro c ⟨⟩
    · intro c hc
      refine hend c ?_
      rw [List.head?_take] at hc
      split at hc
      · cases hc
      · exact hc
  have htake : ((run ++ s).take width).takeWhile Char.isDigit = run := by
    rw [List.take_append, List.take_of_length_le hwidth]
    exact Decimal.takeWhile_isDigit hrun hhead
  rw [number?]
  simp only [htake, List.isEmpty_iff, hne, if_false, List.drop_left]

/-- Padded digits begin with a digit. -/
theorem paddedDigits_cons (width n : Nat) :
    ∃ c run, Decimal.paddedDigits width n = c :: run ∧ c.isDigit = true := by
  cases hdigits : Decimal.paddedDigits width n with
  | nil => exact absurd hdigits (Decimal.paddedDigits_ne_nil width n)
  | cons c run =>
    have hmem : c ∈ Decimal.paddedDigits width n := by simp [hdigits]
    exact ⟨c, run, rfl, Decimal.isDigit_of_mem_paddedDigits hmem⟩

theorem trimStart_paddedDigits (width n : Nat) (s : List Char) :
    Text.trimStart (Decimal.paddedDigits width n ++ s) = Decimal.paddedDigits width n ++ s := by
  obtain ⟨c, run, hcons, hc⟩ := paddedDigits_cons width n
  rw [hcons, List.cons_append, trimStart_cons (isBlank_of_isDigit hc)]

/-- A padded number that fills its width is read back, whatever follows. -/
theorem number?_padded {width n : Nat} (hwidth : 0 < width) (h : n < 10 ^ width) (s : List Char) :
    number? width (Decimal.paddedDigits width n ++ s) = some (n, s) := by
  have hlength := Decimal.length_paddedDigits hwidth h
  have hrun := number?_run (s := s) (fun _ => Decimal.isDigit_of_mem_paddedDigits)
    (Decimal.paddedDigits_ne_nil width n) hlength.le (.inl hlength)
  rwa [Decimal.ofDigitChars_paddedDigits] at hrun

theorem pair?_padded {n : Nat} (h : n < 100) (s : List Char) :
    pair? (Decimal.paddedDigits 2 n ++ s) = some (n, s) := by
  rw [pair?, trimStart_paddedDigits, number?_padded (by decide) h]

/-- A padded number of any width is read back, where no digit follows. -/
theorem number?_unbounded (width n : Nat) {s : List Char} (h : ∀ c ∈ s.head?, c.isDigit = false) :
    number? (Decimal.paddedDigits width n ++ s).length (Decimal.paddedDigits width n ++ s) =
      some (n, s) := by
  have hlength : (Decimal.paddedDigits width n).length ≤
      (Decimal.paddedDigits width n ++ s).length := by simp
  have hrun := number?_run (fun _ => Decimal.isDigit_of_mem_paddedDigits)
    (Decimal.paddedDigits_ne_nil width n) hlength (.inr h)
  rwa [Decimal.ofDigitChars_paddedDigits] at hrun

/-- A year is read up to the sign behind it. -/
theorem year?_yearText (year : Int) (s : List Char) :
    year? ((yearText year).toList ++ '-' :: s) = some (year, '-' :: s) := by
  have hend : ∀ c ∈ ('-' :: s).head?, c.isDigit = false := by
    rintro c ⟨⟩
    decide
  have hsigned := number?_unbounded 4 year.natAbs hend
  unfold yearText
  split_ifs with hfour hneg
  · -- Four digits without a sign.
    have hnumber : number? 4 (Decimal.paddedDigits 4 year.toNat ++ '-' :: s) =
        some (year.toNat, '-' :: s) := number?_padded (by decide) (by omega) _
    have hyear : (year.toNat : Int) = year := by omega
    obtain ⟨c, run, hcons, hc⟩ := paddedDigits_cons 4 year.toNat
    rw [Decimal.padded, String.toList_ofList, year?, trimStart_paddedDigits]
    rw [hcons, List.cons_append] at hnumber ⊢
    split
    · next heq =>
      obtain ⟨rfl, -⟩ := List.cons.inj heq
      exact absurd hc (by decide)
    · next heq =>
      obtain ⟨rfl, -⟩ := List.cons.inj heq
      exact absurd hc (by decide)
    · simp only [hnumber, Option.map_some, hyear]
  · have hyear : -(year.natAbs : Int) = year := by omega
    have hsign : "-".toList = ['-'] := rfl
    rw [String.toList_append, hsign, Decimal.padded, String.toList_ofList, List.append_assoc,
      List.singleton_append, year?, trimStart_cons (by decide)]
    simp only [hsigned, Option.map_some, hyear]
  · have hyear : (year.natAbs : Int) = year := by omega
    have hsign : "+".toList = ['+'] := rfl
    rw [String.toList_append, hsign, Decimal.padded, String.toList_ofList, List.append_assoc,
      List.singleton_append, year?, trimStart_cons (by decide)]
    simp only [hsigned, Option.map_some, hyear]

/-- Places behind a point are scaled to nanoseconds. -/
theorem fraction?_padded {places n : Nat} (hpos : 0 < places) (hplaces : places ≤ 9)
    (h : n < 10 ^ places) :
    fraction? ('.' :: Decimal.paddedDigits places n) = some (n * Decimal.tens (9 - places), []) := by
  have hlength := Decimal.length_paddedDigits hpos h
  have hdigits : ∀ c ∈ Decimal.paddedDigits places n, c.isDigit = true :=
    fun _ => Decimal.isDigit_of_mem_paddedDigits
  have hnumber := number?_run (s := []) hdigits (Decimal.paddedDigits_ne_nil places n)
    (hlength.le.trans hplaces) (.inr (by rintro c ⟨⟩))
  have htake : (Decimal.paddedDigits places n).take 9 = Decimal.paddedDigits places n :=
    List.take_of_length_le (hlength.le.trans hplaces)
  rw [List.append_nil, Decimal.ofDigitChars_paddedDigits] at hnumber
  rw [fraction?, hnumber, Option.map_some]
  simp only [htake, List.takeWhile_eq_self_iff.2 hdigits, List.dropWhile_eq_nil_iff.2 hdigits,
    hlength]

/-- The places of a second are read back, and nothing is left. -/
theorem fraction?_fractionText {fraction : Nat} (h : fraction < nanosPerSecond) :
    fraction? (fractionText fraction).toList = some (fraction, []) := by
  rw [nanosPerSecond] at h
  have hpoint : ".".toList = ['.'] := rfl
  unfold fractionText
  split_ifs with hzero hmillis hmicros
  · rw [hzero]
    rfl
  · have hread : fraction? ('.' :: Decimal.paddedDigits 3 (fraction / 1000000)) =
        some (fraction / 1000000 * 1000000, []) :=
      fraction?_padded (by decide) (by decide) (by omega)
    rw [String.toList_append, hpoint, Decimal.padded, String.toList_ofList, List.singleton_append,
      hread, Nat.div_mul_cancel (Nat.dvd_of_mod_eq_zero hmillis)]
  · have hread : fraction? ('.' :: Decimal.paddedDigits 6 (fraction / 1000)) =
        some (fraction / 1000 * 1000, []) :=
      fraction?_padded (by decide) (by decide) (by omega)
    rw [String.toList_append, hpoint, Decimal.padded, String.toList_ofList, List.singleton_append,
      hread, Nat.div_mul_cancel (Nat.dvd_of_mod_eq_zero hmicros)]
  · have hread : fraction? ('.' :: Decimal.paddedDigits 9 fraction) = some (fraction * 1, []) :=
      fraction?_padded (by decide) (by decide) (by omega)
    rw [String.toList_append, hpoint, Decimal.padded, String.toList_ofList, List.singleton_append,
      hread, Nat.mul_one]

end Reading

namespace Time

theorem shownSecond_le (t : Time) : t.shownSecond ≤ 60 := by
  obtain ⟨hhour, hminute, hsecond, hnano⟩ := t.valid
  rw [nanosPerSecond] at hnano
  rw [shownSecond, nanosPerSecond]
  omega

/-- What a clock shows is read back; a second of 60 is a leap second. -/
theorem ofShown?_shown (t : Time) :
    ofShown? t.hour t.minute t.shownSecond t.fraction = some t := by
  obtain ⟨hhour, hminute, hsecond, hnano⟩ := t.valid
  have hof : of? t.hour t.minute t.second t.nano = some t := dif_pos t.valid
  rw [nanosPerSecond] at hnano
  by_cases hleap : t.nano < 1000000000
  · have hshown : t.shownSecond = t.second := by rw [shownSecond, nanosPerSecond]; omega
    have hfraction : t.fraction = t.nano := Nat.mod_eq_of_lt hleap
    rw [ofShown?, hshown, hfraction, if_neg (by omega), hof]
  · have hlast : t.second = 59 := by omega
    have hshown : t.shownSecond = 60 := by rw [shownSecond, nanosPerSecond]; omega
    have hfraction : nanosPerSecond + t.fraction = t.nano := by
      rw [fraction, nanosPerSecond]
      omega
    rw [ofShown?, hshown, hfraction, if_pos rfl, ← hlast, hof]

end Time

namespace DateTime

open Reading

theorem toList_text (separator : Separator) (t : DateTime) :
    (t.text separator).toList = (yearText t.date.year).toList ++ '-' ::
      (Decimal.paddedDigits 2 t.date.month ++ '-' :: (Decimal.paddedDigits 2 t.date.day ++
        (match separator with | .letterT => 'T' | .space => ' ') ::
          (Decimal.paddedDigits 2 t.time.hour ++ ':' :: (Decimal.paddedDigits 2 t.time.minute ++
            ':' :: (Decimal.paddedDigits 2 t.time.shownSecond ++
              (fractionText t.time.fraction).toList))))) := by
  cases separator <;> simp [text, Date.text, Time.text, Decimal.padded]

theorem sign?_cons (blanks : Bool) {c : Char} (hc : Text.isBlank c = false) (s : List Char) :
    sign? blanks c (c :: s) = some s := by
  rw [sign?]
  cases blanks <;> simp [trimStart_cons hc, literal?]

theorem separator?_cons (separator : Separator) (n : Nat) (s : List Char) :
    separator? separator ((match separator with | .letterT => 'T' | .space => ' ') ::
      (Decimal.paddedDigits 2 n ++ s)) = some (Decimal.paddedDigits 2 n ++ s) := by
  cases separator with
  | letterT => rw [separator?, trimStart_cons (by decide)]; rfl
  | space =>
    have hspace : Text.trimStart (' ' :: (Decimal.paddedDigits 2 n ++ s)) =
        Text.trimStart (Decimal.paddedDigits 2 n ++ s) := rfl
    rw [separator?, hspace, trimStart_paddedDigits]

theorem bind_eq_of_some {α β : Type} {o : Option α} {a : α} {f : α → Option β} {result : Option β}
    (h : o = some a) (hresult : f a = result) : (o >>= f) = result := by
  rw [h]
  exact hresult

/-- A date-time of the calendar is read back. -/
theorem read?_text (separator : Separator) (t : DateTime) :
    read? separator (t.text separator) = some t := by
  obtain ⟨-, -, -, hmonth, -, hday⟩ := t.date.valid
  obtain ⟨hhour, hminute, -, -⟩ := t.time.valid
  have hlength := monthLength_le t.date.year t.date.month
  have hdate : Date.of? t.date.year t.date.month t.date.day = some t.date := dif_pos t.date.valid
  have hsecond := t.time.shownSecond_le
  have hfraction : fraction? (fractionText t.time.fraction).toList = some (t.time.fraction, []) :=
    fraction?_fractionText (Nat.mod_lt _ (by decide))
  have hdash : Text.isBlank '-' = false := by decide
  have hcolon : Text.isBlank ':' = false := by decide
  have hmonth100 : t.date.month < 100 := by omega
  have hday100 : t.date.day < 100 := by omega
  have hhour100 : t.time.hour < 100 := by omega
  have hminute100 : t.time.minute < 100 := by omega
  have hsecond100 : t.time.shownSecond < 100 := by omega
  rw [read?, toList_text]
  -- Each reader takes its part and leaves the rest to the next one.
  refine bind_eq_of_some (year?_yearText _ _) ?_
  refine bind_eq_of_some (sign?_cons _ hdash _) ?_
  refine bind_eq_of_some (pair?_padded hmonth100 _) ?_
  refine bind_eq_of_some (sign?_cons _ hdash _) ?_
  refine bind_eq_of_some (pair?_padded hday100 _) ?_
  refine bind_eq_of_some (separator?_cons separator _ _) ?_
  refine bind_eq_of_some (pair?_padded hhour100 _) ?_
  refine bind_eq_of_some (sign?_cons _ hcolon _) ?_
  refine bind_eq_of_some (pair?_padded hminute100 _) ?_
  refine bind_eq_of_some (sign?_cons _ hcolon _) ?_
  refine bind_eq_of_some (pair?_padded hsecond100 _) ?_
  refine bind_eq_of_some hfraction ?_
  have hdone : (if (separator == .letterT) = true then Text.trimStart [] else []) = [] := ite_self _
  simp only [hdone, List.isEmpty_nil, Bool.not_true, Bool.false_eq_true, if_false, hdate,
    Time.ofShown?_shown, Option.bind_eq_bind, Option.bind_some, Option.pure_def]

end DateTime

end PhotoIntake.Calendar
