import PhotoIntake.Proofs.Decimal.Digits
import PhotoIntake.Proofs.Sequence.Letters
import PhotoIntake.Naming.Template
import Mathlib.Algebra.Order.BigOperators.Group.List

/-!
# Counters tell names apart

Tokens are written without separators, so a token that changes need not change the name: its
neighbours might make up for it.  They cannot where the counters only grow, since then no token gets
shorter.

* `eq_of_flatMap_eq`: texts that are not shorter one by one, and the same together, are the same one
  by one.
* `Token.length_render_later`: no token gets shorter some images later.
* `Field.render_ne_render_later`: a field of the sequences writes something else.
* `Template.render_later_ne`: so does every template with such a field.
-/

namespace PhotoIntake.Naming

/-! ## Texts put together -/

section Segments

variable {α β : Type} {f g : α → List β} {items : List α}

theorem length_flatMap_le (h : ∀ a ∈ items, (f a).length ≤ (g a).length) :
    (items.flatMap f).length ≤ (items.flatMap g).length := by
  rw [List.length_flatMap, List.length_flatMap]
  exact List.sum_le_sum h

/-- Texts that are not shorter one by one, and the same together, are the same one by one. -/
theorem eq_of_flatMap_eq (hlength : ∀ a ∈ items, (f a).length ≤ (g a).length)
    (h : items.flatMap f = items.flatMap g) : ∀ a ∈ items, f a = g a := by
  induction items with
  | nil => simp
  | cons a rest ih =>
    have hfirst : (f a).length ≤ (g a).length := hlength a List.mem_cons_self
    have hlater : ∀ b ∈ rest, (f b).length ≤ (g b).length := fun b hb =>
      hlength b (List.mem_cons_of_mem a hb)
    rw [List.flatMap_cons, List.flatMap_cons] at h
    -- Neither side can make up for the other, so they meet at the end of the first text.
    have hsame : (f a).length = (g a).length := by
      have htotal := congrArg List.length h
      have hrest := length_flatMap_le hlater
      rw [List.length_append, List.length_append] at htotal
      omega
    obtain ⟨ha, hrest⟩ := List.append_inj h hsame
    intro b hb
    rcases List.mem_cons.1 hb with rfl | hb
    · exact ha
    · exact ih hlater hrest b hb

end Segments

/-! ## Fields -/

/-- The occasion some images later, all else the same. -/
def Occasion.later (o : Occasion) (images : Nat) : Occasion :=
  { o with counters := o.counters.advance images }

/-- The field shows a counter, in digits or in letters. -/
def Field.IsSequence (f : Field) : Prop :=
  f.genus.family = .sequences

instance (f : Field) : Decidable f.IsSequence :=
  inferInstanceAs (Decidable (_ = _))

variable {o : Occasion}

theorem Occasion.countOf_later (o : Occasion) (images : Nat) (c : Counter) :
    (o.later images).countOf c = o.countOf c + images := by
  cases c with
  | downloadsToday => exact Nat.add_right_comm _ _ _
  | storedNumber => rfl
  | sessionNumber => rfl

namespace Field

/-- The other fields do not look at the counters. -/
theorem render_later_of_not_isSequence {f : Field} (h : ¬ f.IsSequence) (images : Nat) :
    f.render (o.later images) = f.render o := by
  cases f with
  | counter c width => cases c <;> exact absurd rfl h
  | letters case => exact absurd rfl h
  | _ => rfl

theorem isSequence_cases {f : Field} (h : f.IsSequence) :
    (∃ c width, f = .counter c width) ∨ ∃ case, f = .letters case := by
  cases f with
  | counter c width => exact Or.inl ⟨c, width, rfl⟩
  | letters case => exact Or.inr ⟨case, rfl⟩
  | date source format => cases source <;> cases h
  | time source format => cases source <;> cases h
  | _ => cases h

theorem render_counter_later (o : Occasion) (images : Nat) (c : Counter) (width : Width) :
    (counter c width).render (o.later images) =
      Decimal.padded (width + 1) (o.countOf c + images) := by
  rw [render, Occasion.countOf_later]

/-- Sequence letters in either case are, in capitals, the letters of the session number. -/
theorem map_toUpper_render_letters (o : Occasion) (case : LetterCase) :
    ((letters case).render o).toList.map Char.toUpper = o.counters.letters.toList := by
  have hcapital : ∀ c ∈ o.counters.letters.toList, Text.IsCapital c := fun c hc =>
    Sequence.isCapital_of_mem_letters hc
  have hsame {f : Char → Char} (h : ∀ c, Text.IsCapital c → f c = c) :
      o.counters.letters.toList.map f = o.counters.letters.toList := by
    rw [List.map_congr_left fun c hc => h c (hcapital c hc), List.map_id']
  cases case with
  | upper =>
    show (Text.upper o.counters.letters).toList.map Char.toUpper = _
    rw [Text.upper_of_capitals hcapital, hsame fun c hc => Text.toUpper_of_capital hc]
  | lower =>
    show (Text.lower o.counters.letters).toList.map Char.toUpper = _
    rw [Text.lower_of_capitals hcapital, String.toList_ofList, List.map_map]
    exact hsame fun c hc => Text.toUpper_toLower_of_capital hc

/-- No field gets shorter some images later. -/
theorem length_render_later (o : Occasion) (images : Nat) (f : Field) :
    (f.render o).length ≤ (f.render (o.later images)).length := by
  by_cases hsequence : f.IsSequence
  · obtain ⟨c, width, rfl⟩ | ⟨case, rfl⟩ := isSequence_cases hsequence
    · rw [render_counter_later]
      exact Decimal.length_padded_mono (Nat.le_add_right _ _) _
    · have hletters (o : Occasion) :
          ((letters case).render o).length = o.counters.letters.length := by
        rw [← String.length_toList, ← List.length_map Char.toUpper, map_toUpper_render_letters,
          String.length_toList]
      rw [hletters, hletters]
      exact Sequence.length_letters_mono (Nat.le_add_right _ _)
  · rw [render_later_of_not_isSequence hsequence]

/-- Some images later a field of the sequences writes something else. -/
theorem render_ne_render_later {f : Field} (h : f.IsSequence) {images : Nat}
    (himages : 0 < images) : f.render o ≠ f.render (o.later images) := by
  obtain ⟨c, width, rfl⟩ | ⟨case, rfl⟩ := isSequence_cases h
  · rw [render_counter_later]
    intro heq
    have hcount := Decimal.padded_injective _ heq
    omega
  · intro heq
    have hletters : o.counters.letters = (o.later images).counters.letters := by
      rw [← String.toList_inj, ← map_toUpper_render_letters _ case, heq,
        map_toUpper_render_letters]
    have hnumber : o.counters.sessionNumber = o.counters.sessionNumber + images :=
      Sequence.letters_injective hletters
    omega

end Field

/-! ## Templates -/

/-- No token gets shorter some images later. -/
theorem Token.length_render_later (o : Occasion) (images : Nat) (token : Token) :
    (token.render o).toList.length ≤ (token.render (o.later images)).toList.length := by
  cases token with
  | text content => exact Nat.le_refl _
  | field f =>
    rw [String.length_toList, String.length_toList]
    exact f.length_render_later o images

namespace Template

/-- The characters of a name are those of its tokens one after the other. -/
theorem toList_renderTokens (t : Template) (o : Occasion) :
    (t.renderTokens o).toList = t.tokens.flatMap fun token => (token.render o).toList := by
  rw [renderTokens, String.toList_join, List.flatMap_map]

/-- Some images later a template with a field of the sequences renders another name. -/
theorem render_later_ne {t : Template} (h : ∃ f, Token.field f ∈ t.tokens ∧ f.IsSequence)
    {images : Nat} (himages : 0 < images) (o : Occasion) (purpose : Purpose) :
    t.render (o.later images) purpose ≠ t.render o purpose := by
  obtain ⟨f, hmem, hsequence⟩ := h
  intro heq
  have htokens : t.renderTokens o = t.renderTokens (o.later images) := by
    cases purpose with
    | image => exact (String.append_left_inj _).1 heq.symm
    | destination => exact heq.symm
  have hchars := congrArg String.toList htokens
  rw [toList_renderTokens, toList_renderTokens] at hchars
  have hfield := eq_of_flatMap_eq (fun token _ => token.length_render_later o images) hchars
    (.field f) hmem
  exact Field.render_ne_render_later hsequence himages (String.toList_inj.1 hfield)

/-- Letters, free text and a number of six digits, none of them apart from the next. -/
def sampleLettered : Template :=
  { key := "lettered"
    name := "Lettered"
    tokens := [.field (.letters .lower), .text "1", .field (.counter .storedNumber (Fin.last 5))]
    extension := .lower
    isBuiltin := false }

/-- The first image of all. -/
def sampleOccasion : Occasion :=
  ⟨.ofName "IMG_7.JPG" "card/IMG_7.JPG", .first, .epoch⟩

theorem render_later_ne_sample :
    (∃ f, Token.field f ∈ sampleLettered.tokens ∧ f.IsSequence) ∧
      sampleLettered.render (sampleOccasion.later 26) .image ≠
        sampleLettered.render sampleOccasion .image :=
  have hfield : ∃ f, Token.field f ∈ sampleLettered.tokens ∧ f.IsSequence :=
    ⟨.letters .lower, by decide, by decide⟩
  ⟨hfield, render_later_ne hfield (by decide) sampleOccasion .image⟩

end Template

end PhotoIntake.Naming
