import PhotoIntake.Text.Casing
import Mathlib.Data.List.Basic
import Mathlib.Tactic.Common

/-!
# What case mapping does to plain text

Case mapping replaces characters one by one.  The tables are long, but names are put together from
characters that they say little about: capital letters, digits and punctuation.

* `upper_of_capitals` and `lower_of_capitals`: a word of capital letters is mapped letter by letter.
* `eq_of_mem_upperChar` and `eq_of_mem_lowerChar`: digits and punctuation come from themselves only.
* `mem_of_mem_upper` and `mem_of_mem_lowerAfter`: so a text has no others in another case.
-/

namespace PhotoIntake.Text

open Casing

/-! ## Capital letters -/

/-- The character is a letter from `A` to `Z`. -/
def IsCapital (c : Char) : Prop :=
  'A' ≤ c ∧ c ≤ 'Z'

instance (c : Char) : Decidable (IsCapital c) :=
  inferInstanceAs (Decidable (_ ∧ _))

theorem IsCapital.toNat_lt {c : Char} (h : IsCapital c) : c.toNat < 0x80 :=
  Nat.lt_of_le_of_lt (Char.le_def.1 h.2) (by decide)

/-- What holds of the characters with these code points holds of all below the last one. -/
theorem forall_ascii {P : Char → Prop} (h : ∀ n, n < 0x80 → P (Char.ofNat n)) {c : Char}
    (hc : c.toNat < 0x80) : P c :=
  Char.ofNat_toNat c ▸ h c.toNat hc

theorem toUpper_of_capital {c : Char} (h : IsCapital c) : c.toUpper = c :=
  forall_ascii (P := fun c => IsCapital c → c.toUpper = c) (by decide) h.toNat_lt h

theorem toUpper_toLower_of_capital {c : Char} (h : IsCapital c) : c.toLower.toUpper = c :=
  forall_ascii (P := fun c => IsCapital c → c.toLower.toUpper = c) (by decide) h.toNat_lt h

/-- A word of capital letters is its own upper-case form. -/
theorem upper_of_capitals {s : String} (h : ∀ c ∈ s.toList, IsCapital c) : upper s = s := by
  have hchars : s.toList.flatMap upperChar = s.toList := by
    have hone : ∀ c ∈ s.toList, upperChar c = [c] := fun c hc => by
      rw [upperChar, if_pos (h c hc).toNat_lt, toUpper_of_capital (h c hc)]
    rw [List.flatMap_congr hone, List.flatMap_singleton']
  rw [upper, hchars, String.ofList_toList]

theorem lowerAfter_of_capitals {before word : List Char} (h : ∀ c ∈ word, IsCapital c) :
    lowerAfter before word = word.map Char.toLower := by
  induction word generalizing before with
  | nil => rfl
  | cons c rest ih =>
    have hc : IsCapital c := h c List.mem_cons_self
    have hsigma : (c == 'Σ') = false := by
      refine beq_eq_false_iff_ne.2 ?_
      rintro rfl
      exact absurd hc (by decide)
    rw [lowerAfter, hsigma, ih fun d hd => h d (List.mem_cons_of_mem _ hd), lowerChar,
      if_pos hc.toNat_lt]
    rfl

/-- The lower-case form of a word of capital letters. -/
theorem lower_of_capitals {s : String} (h : ∀ c ∈ s.toList, IsCapital c) :
    lower s = String.ofList (s.toList.map Char.toLower) := by
  rw [lower, lowerAfter_of_capitals h]

/-! ## Digits and punctuation -/

/-- The character is a space, a digit or one of the marks around them. -/
def IsPlain (c : Char) : Prop :=
  ' ' ≤ c ∧ c ≤ '@'

instance (c : Char) : Decidable (IsPlain c) :=
  inferInstanceAs (Decidable (_ ∧ _))

/-- A number stands for the character with it, or it is none of a character. -/
theorem toNat_ofNat_cases (n : Nat) : (Char.ofNat n).toNat = n ∨ (Char.ofNat n).toNat = 0 := by
  by_cases hvalid : n.isValidChar
  · rw [Char.ofNat, dif_pos hvalid]
    exact Or.inl rfl
  · rw [Char.ofNat, dif_neg hvalid]
    exact Or.inr rfl

/-- No run of the table leads to a plain character. -/
theorem not_isPlain_mapByRuns {runs : List Run}
    (hruns : ∀ run ∈ runs, (0x40 : Int) < run.first + run.shift) {c : Char} (hc : 0x80 ≤ c.toNat) :
    ¬ IsPlain (mapByRuns runs c) := by
  unfold mapByRuns
  split
  · rename_i run hfind
    have hlists := List.find?_some hfind
    have hbeyond := hruns run (List.mem_of_find?_eq_some hfind)
    simp only [Run.lists, Bool.and_eq_true, decide_eq_true_eq] at hlists
    intro hplain
    have hlow : ' '.toNat ≤ (Char.ofNat (Int.toNat (c.toNat + run.shift))).toNat :=
      Char.le_def.1 hplain.1
    have hhigh : (Char.ofNat (Int.toNat (c.toNat + run.shift))).toNat ≤ '@'.toNat :=
      Char.le_def.1 hplain.2
    rcases toNat_ofNat_cases (Int.toNat (c.toNat + run.shift)) with hsame | hzero
    · rw [hsame] at hhigh
      have hat : '@'.toNat = 0x40 := rfl
      omega
    · rw [hzero] at hlow
      exact absurd hlow (by decide)
  · intro hplain
    have hhigh : c.toNat ≤ '@'.toNat := Char.le_def.1 hplain.2
    have hat : '@'.toNat = 0x40 := rfl
    omega

/-- Nor does a table of special forms. -/
theorem not_isPlain_of_lookup {table : List (Char × List Char)}
    (htable : (table.all fun entry => entry.2.all fun d => !decide (IsPlain d)) = true)
    {c d : Char} {form : List Char} (hform : table.lookup c = some form) (hd : d ∈ form) :
    ¬ IsPlain d := by
  obtain ⟨before, after, hentries, -⟩ := List.lookup_eq_some_iff.1 hform
  have hentry := List.all_eq_true.1 htable (c, form) (by simp [hentries])
  simpa using List.all_eq_true.1 hentry d hd

theorem eq_of_mem_lowerChar {c d : Char} (h : d ∈ lowerChar c) (hd : IsPlain d) : d = c := by
  unfold lowerChar at h
  split_ifs at h with hascii
  · obtain rfl := List.mem_singleton.1 h
    exact forall_ascii (P := fun c => IsPlain c.toLower → c.toLower = c) (by decide) hascii hd
  · split at h
    · rename_i form hform
      exact absurd hd (not_isPlain_of_lookup (by decide +kernel) hform h)
    · obtain rfl := List.mem_singleton.1 h
      exact absurd hd (not_isPlain_mapByRuns (by decide +kernel) (by omega))

theorem eq_of_mem_upperChar {c d : Char} (h : d ∈ upperChar c) (hd : IsPlain d) : d = c := by
  unfold upperChar at h
  split_ifs at h with hascii
  · obtain rfl := List.mem_singleton.1 h
    exact forall_ascii (P := fun c => IsPlain c.toUpper → c.toUpper = c) (by decide) hascii hd
  · split at h
    · rename_i form hform
      exact absurd hd (not_isPlain_of_lookup (by decide +kernel) hform h)
    · obtain rfl := List.mem_singleton.1 h
      exact absurd hd (not_isPlain_mapByRuns (by decide +kernel) (by omega))

/-- A plain character of the lower-case form is one of the text. -/
theorem mem_of_mem_lowerAfter {before s : List Char} {d : Char} (h : d ∈ lowerAfter before s)
    (hd : IsPlain d) : d ∈ s := by
  induction s generalizing before with
  | nil => simp [lowerAfter] at h
  | cons c rest ih =>
    rw [lowerAfter] at h
    rcases List.mem_append.1 h with h | h
    · split_ifs at h with hsigma
      · obtain rfl := List.mem_singleton.1 h
        exact absurd hd (by decide)
      · obtain rfl := List.mem_singleton.1 h
        exact absurd hd (by decide)
      · exact eq_of_mem_lowerChar h hd ▸ List.mem_cons_self
    · exact List.mem_cons_of_mem _ (ih h)

/-- And so is one of the upper-case form. -/
theorem mem_of_mem_upper {s : String} {d : Char} (h : d ∈ (upper s).toList) (hd : IsPlain d) :
    d ∈ s.toList := by
  rw [upper, String.toList_ofList] at h
  obtain ⟨c, hc, hform⟩ := List.mem_flatMap.1 h
  exact eq_of_mem_upperChar hform hd ▸ hc

end PhotoIntake.Text
