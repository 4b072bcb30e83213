import PhotoIntake.Text.Blank
import Mathlib.Data.List.Basic
import Mathlib.Data.List.TakeWhile
import Mathlib.Tactic.Common

/-!
# Cutting texts

A reader takes the blanks off the ends of a text, and cuts it at a character: at the first one, or
at all of them.  This module says which texts have which parts, in both directions.

* `trim_eq_iff`: what stands between blanks.
* `cut_eq_iff`: what stands on the two sides of the first of a character.
* `splitOn_eq_triple_iff`: three parts with a character between each two.
-/

namespace PhotoIntake.Text

/-! ## Blanks at the ends -/

/-- There are only blanks in the text. -/
def AllBlank (s : List Char) : Prop :=
  ∀ c ∈ s, isBlank c = true

instance (s : List Char) : Decidable (AllBlank s) :=
  decidable_of_iff (s.all isBlank = true) List.all_eq_true

/-- The text does not begin with a blank, and it does not end with one. -/
structure IsTrimmed (s : List Char) : Prop where
  head : ∀ c ∈ s.head?, isBlank c = false
  last : ∀ c ∈ s.getLast?, isBlank c = false

variable {s t before after : List Char}

theorem isBlank_of_isDigit {c : Char} (h : c.isDigit = true) : isBlank c = false := by
  have hrange : 48 ≤ c.toNat ∧ c.toNat ≤ 57 := Char.isDigit_iff_toNat.1 h
  simp only [isBlank, Bool.or_eq_false_iff, Bool.and_eq_false_iff, beq_eq_false_iff_ne,
    decide_eq_false_iff_not]
  omega

theorem trimStart_cons {c : Char} (h : isBlank c = false) (s : List Char) :
    trimStart (c :: s) = c :: s :=
  List.dropWhile_cons_of_neg (by simp [h])

theorem trimStart_of_head (h : ∀ c ∈ s.head?, isBlank c = false) : trimStart s = s := by
  cases s with
  | nil => rfl
  | cons c s => exact trimStart_cons (h c rfl) s

theorem trimStart_append (h : AllBlank before) (s : List Char) :
    trimStart (before ++ s) = trimStart s :=
  List.dropWhile_append_of_pos h

theorem trimEnd_eq (s : List Char) : trimEnd s = (trimStart s.reverse).reverse :=
  rfl

/-- Blanks on both sides are taken off. -/
theorem trim_append (hbefore : AllBlank before) (hafter : AllBlank after) (h : IsTrimmed s) :
    trim (before ++ (s ++ after)) = s := by
  have hback : AllBlank after.reverse := fun c hc => hafter c (List.mem_reverse.1 hc)
  have hend : trimEnd (s ++ after) = s := by
    rw [trimEnd_eq, List.reverse_append, trimStart_append hback,
      trimStart_of_head (by simpa using h.last), List.reverse_reverse]
  rw [trim, trimStart_append hbefore]
  cases s with
  | nil =>
    have hnone : trimStart after = [] := List.dropWhile_eq_nil_iff.2 hafter
    rw [List.nil_append, hnone]
    rfl
  | cons c s => rwa [List.cons_append, trimStart_cons (h.head c rfl), ← List.cons_append]

/-- A text is what is left of it behind some blanks. -/
theorem exists_trimStart (s : List Char) :
    ∃ before, AllBlank before ∧ s = before ++ trimStart s ∧
      ∀ c ∈ (trimStart s).head?, isBlank c = false := by
  refine ⟨s.takeWhile isBlank, fun c hc => List.mem_takeWhile_imp hc,
    List.takeWhile_append_dropWhile.symm, fun c hc => ?_⟩
  have hstop := List.head?_dropWhile_not isBlank s
  rw [show (s.dropWhile isBlank).head? = some c from hc] at hstop
  exact hstop

theorem exists_trim (s : List Char) :
    IsTrimmed (trim s) ∧ ∃ before after, AllBlank before ∧ AllBlank after ∧
      s = before ++ (trim s ++ after) := by
  obtain ⟨before, hbefore, hs, hhead⟩ := exists_trimStart s
  obtain ⟨back, hback, hrev, hlast⟩ := exists_trimStart (trimStart s).reverse
  have hsplit : trimStart s = trim s ++ back.reverse := by
    rw [trim, trimEnd_eq, ← List.reverse_append, ← hrev, List.reverse_reverse]
  refine ⟨⟨fun c hc => hhead c ?_, fun c hc => hlast c ?_⟩, before, back.reverse, hbefore,
    fun c hc => hback c (List.mem_reverse.1 hc), ?_⟩
  · rw [hsplit, List.head?_append, Option.mem_def.1 hc]
    rfl
  · rw [← List.getLast?_reverse]
    exact hc
  · rw [← hsplit]
    exact hs

/-- What is left of a text is what stands between blanks in it. -/
theorem trim_eq_iff :
    trim s = t ↔ IsTrimmed t ∧ ∃ before after, AllBlank before ∧ AllBlank after ∧
      s = before ++ (t ++ after) := by
  constructor
  · rintro rfl
    exact exists_trim s
  · rintro ⟨ht, before, after, hbefore, hafter, rfl⟩
    exact trim_append hbefore hafter ht

/-- Of three parts only the outer ones say whether the text is trimmed. -/
theorem isTrimmed_append_iff {x z : List Char} (hx : x ≠ []) (y : List Char) (hz : z ≠ []) :
    IsTrimmed (x ++ (y ++ z)) ↔
      (∀ c ∈ x.head?, isBlank c = false) ∧ ∀ c ∈ z.getLast?, isBlank c = false := by
  have hhead : (x ++ (y ++ z)).head? = x.head? := List.head?_append_of_ne_nil x hx
  have hlast : (x ++ (y ++ z)).getLast? = z.getLast? := by
    rw [← List.append_assoc, List.getLast?_append_of_ne_nil _ hz]
  constructor
  · rintro ⟨hbegin, hend⟩
    exact ⟨hhead ▸ hbegin, hlast ▸ hend⟩
  · rintro ⟨hbegin, hend⟩
    exact ⟨hhead ▸ hbegin, hlast ▸ hend⟩

/-! ## The first of a character -/

/-- A text is cut at the first of a character. -/
theorem cut_eq_iff {c d : Char} :
    s.takeWhile (· != c) = before ∧ s.dropWhile (· != c) = d :: after ↔
      d = c ∧ c ∉ before ∧ s = before ++ c :: after := by
  constructor
  · rintro ⟨rfl, hdrop⟩
    have hstop := List.head?_dropWhile_not (· != c) s
    rw [hdrop] at hstop
    obtain rfl : d = c := by simpa using hstop
    refine ⟨rfl, fun hmem => ?_, ?_⟩
    · simpa using List.mem_takeWhile_imp hmem
    · rw [← hdrop, List.takeWhile_append_dropWhile]
  · rintro ⟨rfl, hmem, rfl⟩
    have hbefore : ∀ e ∈ before, (e != d) = true := fun e he =>
      bne_iff_ne.2 fun hsame => hmem (hsame ▸ he)
    rw [List.takeWhile_append_of_pos hbefore, List.dropWhile_append_of_pos hbefore]
    simp

/-! ## All of a character -/

/-- No part between separators holds one. -/
theorem not_mem_of_mem_splitOn {c : Char} {s run : List Char} (h : run ∈ s.splitOn c) :
    c ∉ run := by
  induction s generalizing run with
  | nil =>
    rw [List.splitOn_nil, List.mem_singleton] at h
    simp [h]
  | cons d rest ih =>
    rw [List.splitOn_cons_eq_if_modifyHead] at h
    split at h
    · rcases List.mem_cons.1 h with rfl | h
      · simp
      · exact ih h
    · rename_i hd
      cases hrest : rest.splitOn c with
      | nil => exact absurd hrest (List.splitOn_ne_nil c rest)
      | cons first others =>
        rw [hrest, List.modifyHead_cons] at h
        rcases List.mem_cons.1 h with rfl | h
        · have hfirst : c ∉ first := ih (by simp [hrest])
          have hne : c ≠ d := fun he => hd (by simp [he])
          simp [hne, hfirst]
        · exact ih (by simp [hrest, h])

/-- A text has three parts if there is a character between each two of them and in none. -/
theorem splitOn_eq_triple_iff {c : Char} {x y z : List Char} :
    s.splitOn c = [x, y, z] ↔ (c ∉ x ∧ c ∉ y ∧ c ∉ z) ∧ s = x ++ c :: (y ++ c :: z) := by
  have hjoin : [c].intercalate [x, y, z] = x ++ c :: (y ++ c :: z) := by
    simp [List.intercalate]
  constructor
  · intro h
    have hparts : ∀ run ∈ [x, y, z], c ∉ run := fun run hrun =>
      not_mem_of_mem_splitOn (s := s) (h ▸ hrun)
    refine ⟨by simpa using hparts, ?_⟩
    rw [← hjoin, ← h, List.intercalate_splitOn]
  · rintro ⟨hparts, rfl⟩
    rw [← hjoin]
    exact List.splitOn_intercalate c (by simpa using hparts) (List.cons_ne_nil _ _)

end PhotoIntake.Text
