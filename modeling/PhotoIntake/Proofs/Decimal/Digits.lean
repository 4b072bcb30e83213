import PhotoIntake.Decimal.Whole
import Mathlib.Tactic.Ring
import Mathlib.Data.List.TakeWhile

/-!
# The digits of a number

A number is written with one or more ASCII digits, and the first of them is no zero unless it is the
only one.  The readers rely on both facts: on the first to find where a number ends, on the second
to accept it.

* `digits_cases`: the shape of the digits.
* `takeWhile_isDigit` and `dropWhile_isDigit`: a scanner takes a run of digits and leaves the rest.
* `ofDigitChars_paddedDigits` and `length_paddedDigits`: zeros in front up to a width.
* `length_padded_mono` and `padded_injective`: a greater number is written differently, and not
  shorter.
* `readBelow?_eq_some_iff`: a reader of numbers that may have a plus sign takes what `Spells` one.
* `readSigned32?_eq_some_iff`: a reader of numbers with either sign takes what `SpellsSigned` one.
-/

namespace PhotoIntake.Decimal

theorem digits_ne_nil (n : Nat) : digits n ≠ [] :=
  Nat.toDigits_ne_nil

theorem isDigit_of_mem_digits {n : Nat} {c : Char} (h : c ∈ digits n) : c.isDigit = true :=
  Nat.isDigit_of_mem_toDigits (by decide) (by decide) h

theorem ofDigitChars_digits (n : Nat) : Nat.ofDigitChars 10 (digits n) 0 = n :=
  Nat.ofDigitChars_toDigits (by decide) (by decide)

theorem digits_of_lt {n : Nat} (h : n < 10) : digits n = [Nat.digitChar n] :=
  Nat.toDigits_of_lt_base h

theorem digits_of_le {n : Nat} (h : 10 ≤ n) :
    digits n = digits (n / 10) ++ [Nat.digitChar (n % 10)] :=
  Nat.toDigits_of_base_le (by decide) h

/-- A number other than zero is not written with a zero in front. -/
theorem head?_digits_ne {n : Nat} (h : 0 < n) : (digits n).head? ≠ some '0' := by
  induction n using Nat.strongRecOn with
  | ind n ih =>
    by_cases hlt : n < 10
    · have hchar : ∀ k, k < 10 → 0 < k → Nat.digitChar k ≠ '0' := by decide
      simpa [digits_of_lt hlt] using hchar n hlt h
    · rw [digits_of_le (by omega), List.head?_append]
      have hhead := ih (n / 10) (by omega) (by omega)
      cases hdigits : digits (n / 10) with
      | nil => exact absurd hdigits (digits_ne_nil _)
      | cons c rest => simpa [hdigits] using hhead

/-- Zero is one digit; any other number begins with a digit that is no zero. -/
theorem digits_cases (n : Nat) :
    digits n = ['0'] ∨ ∃ c rest, digits n = c :: rest ∧ c.isDigit = true ∧ c ≠ '0' := by
  rcases Nat.eq_zero_or_pos n with rfl | hpos
  · exact Or.inl (digits_of_lt (by decide))
  · have hhead := head?_digits_ne hpos
    cases hdigits : digits n with
    | nil => exact absurd hdigits (digits_ne_nil n)
    | cons c rest =>
      refine Or.inr ⟨c, rest, rfl, isDigit_of_mem_digits (n := n) (by simp [hdigits]), ?_⟩
      rw [hdigits] at hhead
      simpa using hhead

/-- What begins with a number does not begin with a character that is no digit. -/
theorem digits_append_ne {c : Char} (hc : c.isDigit = false) (n : Nat) (s rest : List Char) :
    digits n ++ s ≠ c :: rest := by
  intro heq
  cases hdigits : digits n with
  | nil => exact absurd hdigits (digits_ne_nil n)
  | cons d run =>
    rw [hdigits, List.cons_append] at heq
    have hdigit := isDigit_of_mem_digits (n := n) (c := d) (by simp [hdigits])
    rw [(List.cons.inj heq).1, hc] at hdigit
    exact absurd hdigit (by decide)

/-- A scanner takes a run of digits that no digit follows. -/
theorem takeWhile_isDigit {run s : List Char} (hrun : ∀ c ∈ run, c.isDigit = true)
    (h : ∀ c ∈ s.head?, c.isDigit = false) : (run ++ s).takeWhile Char.isDigit = run := by
  rw [List.takeWhile_append_of_pos hrun]
  cases s with
  | nil => simp
  | cons c s => simp [h c rfl]

theorem dropWhile_isDigit {run s : List Char} (hrun : ∀ c ∈ run, c.isDigit = true)
    (h : ∀ c ∈ s.head?, c.isDigit = false) : (run ++ s).dropWhile Char.isDigit = s := by
  rw [List.dropWhile_append_of_pos hrun]
  cases s with
  | nil => rfl
  | cons c s => simp [h c rfl]

/-- A greater number has at least as many digits. -/
theorem length_digits_mono {m n : Nat} (h : m ≤ n) : (digits m).length ≤ (digits n).length := by
  have hpos : 0 < (digits n).length := List.length_pos_iff.2 (digits_ne_nil n)
  have hn : n < 10 ^ (digits n).length :=
    (Nat.length_toDigits_le_iff (by decide) hpos).1 (Nat.le_refl _)
  exact (Nat.length_toDigits_le_iff (by decide) hpos).2 (Nat.lt_of_le_of_lt h hn)

/-! ## Padded digits -/

theorem isDigit_of_mem_paddedDigits {width n : Nat} {c : Char} (h : c ∈ paddedDigits width n) :
    c.isDigit = true := by
  rcases List.mem_append.1 h with h | h
  · rw [(List.mem_replicate.1 h).2]
    decide
  · exact isDigit_of_mem_digits h

theorem toList_padded (width n : Nat) : (padded width n).toList = paddedDigits width n :=
  String.toList_ofList

theorem paddedDigits_ne_nil (width n : Nat) : paddedDigits width n ≠ [] :=
  List.append_ne_nil_of_right_ne_nil _ (digits_ne_nil n)

theorem ofDigitChars_paddedDigits (width n : Nat) :
    Nat.ofDigitChars 10 (paddedDigits width n) 0 = n := by
  rw [paddedDigits, Nat.ofDigitChars_append, Nat.ofDigitChars_replicate_zero, Nat.mul_zero,
    ofDigitChars_digits]

/-- A number of no more digits than the width fills it. -/
theorem length_paddedDigits {width n : Nat} (hwidth : 0 < width) (h : n < 10 ^ width) :
    (paddedDigits width n).length = width := by
  have hdigits : (digits n).length ≤ width := (Nat.length_toDigits_le_iff (by decide) hwidth).2 h
  rw [paddedDigits, List.length_append, List.length_replicate]
  omega

theorem length_padded_mono {m n : Nat} (h : m ≤ n) (width : Nat) :
    (padded width m).length ≤ (padded width n).length := by
  have hdigits := length_digits_mono h
  simp only [padded, String.length_ofList, paddedDigits, List.length_append, List.length_replicate]
  omega

/-- Different numbers are written differently, with zeros in front or without. -/
theorem padded_injective (width : Nat) : Function.Injective (padded width) := by
  intro m n h
  have hdigits : paddedDigits width m = paddedDigits width n := String.ofList_injective h
  rw [← ofDigitChars_paddedDigits width m, hdigits, ofDigitChars_paddedDigits]

/-! ## Numbers that may have a plus sign -/

/-- One or more digits of the number, with zeros in front or without. -/
structure IsRun (run : List Char) (n : Nat) : Prop where
  ne_nil : run ≠ []
  isDigit : ∀ c ∈ run, c.isDigit = true
  value : Nat.ofDigitChars 10 run 0 = n

/-- The digits of the number, which may have a plus sign in front. -/
def Spells (s : List Char) (n : Nat) : Prop :=
  IsRun s n ∨ ∃ run, s = '+' :: run ∧ IsRun run n

variable {s : List Char} {n : Nat}

theorem isRun_digits (n : Nat) : IsRun (digits n) n :=
  ⟨digits_ne_nil n, fun _ => isDigit_of_mem_digits, ofDigitChars_digits n⟩

theorem spells_digits (n : Nat) : Spells (digits n) n :=
  Or.inl (isRun_digits n)

theorem spells_paddedDigits (width n : Nat) : Spells (paddedDigits width n) n :=
  Or.inl ⟨paddedDigits_ne_nil width n, fun _ => isDigit_of_mem_paddedDigits,
    ofDigitChars_paddedDigits width n⟩

theorem IsRun.ne_plus (h : IsRun s n) (rest : List Char) : s ≠ '+' :: rest := by
  rintro rfl
  exact absurd (h.isDigit '+' List.mem_cons_self) (by decide)

theorem Spells.ne_nil (h : Spells s n) : s ≠ [] := by
  rcases h with h | ⟨run, rfl, -⟩
  · exact h.ne_nil
  · exact List.cons_ne_nil _ _

/-- There is no dash in a number. -/
theorem Spells.dash_not_mem (h : Spells s n) : '-' ∉ s := by
  intro hmem
  rcases h with h | ⟨run, rfl, h⟩
  · exact absurd (h.isDigit _ hmem) (by decide)
  · rcases List.mem_cons.1 hmem with heq | hmem
    · exact absurd heq (by decide)
    · exact absurd (h.isDigit _ hmem) (by decide)

theorem readDigits?_eq_some_iff : readDigits? s = some n ↔ IsRun s n := by
  constructor
  · intro h
    unfold readDigits? at h
    split at h
    · simp at h
    · next hrun =>
      simp only [Bool.or_eq_true, not_or, List.isEmpty_iff, Bool.not_eq_eq_eq_not, Bool.not_true,
        Bool.not_eq_false] at hrun
      exact ⟨hrun.1, List.all_eq_true.1 hrun.2, Option.some.inj h⟩
  · rintro ⟨hne, hdigit, rfl⟩
    have hall : s.all Char.isDigit = true := List.all_eq_true.2 hdigit
    simp [readDigits?, List.isEmpty_iff, hne, hall]

/-- A reader takes what spells a number below its bound. -/
theorem readBelow?_eq_some_iff {bound : Nat} :
    readBelow? bound s = some n ↔ Spells s n ∧ n < bound := by
  unfold readBelow? Spells
  simp only [Option.filter_eq_some_iff, decide_eq_true_eq, readDigits?_eq_some_iff]
  refine and_congr_left fun _ => ?_
  split
  · next rest =>
    constructor
    · exact fun h => Or.inr ⟨rest, rfl, h⟩
    · rintro (h | ⟨run, heq, h⟩)
      · exact absurd rfl (h.ne_plus rest)
      · rwa [(List.cons.inj heq).2]
  · next hplus =>
    constructor
    · exact Or.inl
    · rintro (h | ⟨run, heq, -⟩)
      · exact h
      · exact absurd heq (hplus run)

/-! ## Numbers that may have either sign -/

/-- The text spells the number, or it has the digits of the opposite one behind a minus sign. -/
def SpellsSigned (s : List Char) (k : Int) : Prop :=
  (∃ n : Nat, Spells s n ∧ (n : Int) = k) ∨
    ∃ run n, s = '-' :: run ∧ IsRun run n ∧ -(n : Int) = k

/-- A reader of words with a sign takes what spells a number that such a word holds. -/
theorem readSigned32?_eq_some_iff {k : Int} :
    readSigned32? s = some k ↔
      SpellsSigned s k ∧ -(wordBound 31 : Int) ≤ k ∧ k < wordBound 31 := by
  have hpos : 0 < wordBound 31 := by decide
  unfold readSigned32? SpellsSigned
  split
  · next rest =>
    simp only [Option.map_eq_some_iff, Option.bind_eq_bind, Option.bind_eq_some_iff,
      Option.pure_def, Option.some.injEq, Option.filter_eq_some_iff, readDigits?_eq_some_iff,
      decide_eq_true_eq]
    constructor
    · rintro ⟨-, ⟨n, ⟨hrun, hn⟩, rfl⟩, rfl⟩
      exact ⟨Or.inr ⟨rest, n, rfl, hrun, rfl⟩, by omega, by omega⟩
    · rintro ⟨⟨n, hspells, -⟩ | ⟨run, n, heq, hrun, rfl⟩, hlow, -⟩
      · exact absurd List.mem_cons_self hspells.dash_not_mem
      · rw [(List.cons.inj heq).2]
        exact ⟨n, ⟨n, ⟨hrun, by omega⟩, rfl⟩, rfl⟩
  · next hminus =>
    simp only [Option.map_eq_some_iff, readBelow?_eq_some_iff, Int.ofNat_eq_natCast]
    constructor
    · rintro ⟨n, ⟨hspells, hn⟩, rfl⟩
      exact ⟨Or.inl ⟨n, hspells, rfl⟩, by omega, by omega⟩
    · rintro ⟨⟨n, hspells, rfl⟩ | ⟨run, n, heq, -, -⟩, -, hhigh⟩
      · exact ⟨n, ⟨hspells, by omega⟩, rfl⟩
      · exact absurd heq (hminus run)

end PhotoIntake.Decimal
