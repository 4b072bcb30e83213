import PhotoIntake.Naming.Template
import Mathlib.Data.List.Chain
import Mathlib.Data.List.Forall2

/-!
# Boundaries of tokens

An editor shows a template as one text and has to know which of its characters belong to which
token.  The text is put together from the tokens in one pass, their ranges are summed up in another,
so the two have to be in step.  A range counts characters, whatever number of bytes they take, and
the range of an empty text is empty.

* `head?_boundariesFrom`, `isChain_boundariesFrom` and `getLast?_boundariesFrom`: the ranges follow
  one another from the start to the end.
* `forall₂_boundariesFrom`: behind any text, the range of a token cuts out what the token shows.
* `boundaries_tile_shown`: all of it for a template.
-/

namespace PhotoIntake.Naming

/-- The characters of a text in a range. -/
def cut (s : String) (range : Nat × Nat) : String :=
  String.ofList (s.toList.extract range.1 range.2)

namespace Template

/-- The characters that tokens show, one token after the other. -/
def shownChars (tokens : List Token) : List Char :=
  tokens.flatMap fun token => token.shown.toList

theorem toList_shown (t : Template) : t.shown.toList = shownChars t.tokens := by
  rw [shown, String.toList_join, List.flatMap_map, shownChars]

variable (start : Nat) (tokens : List Token)

theorem length_boundariesFrom : (boundariesFrom start tokens).length = tokens.length := by
  induction tokens generalizing start with
  | nil => rfl
  | cons token rest ih => rw [boundariesFrom, List.length_cons, ih, List.length_cons]

/-- The first range begins at the start. -/
theorem head?_boundariesFrom {range : Nat × Nat}
    (h : range ∈ (boundariesFrom start tokens).head?) : range.1 = start := by
  cases tokens with
  | nil => cases h
  | cons token rest =>
    obtain rfl := Option.some.inj h
    rfl

/-- Every other range begins where the one before it ends. -/
theorem isChain_boundariesFrom :
    (boundariesFrom start tokens).IsChain fun range next => next.1 = range.2 := by
  induction tokens generalizing start with
  | nil => exact .nil
  | cons token rest ih =>
    exact List.isChain_cons.2 ⟨fun next hnext => head?_boundariesFrom _ rest hnext, ih _⟩

/-- The last range ends where the text of the tokens does. -/
theorem getLast?_boundariesFrom {range : Nat × Nat}
    (h : range ∈ (boundariesFrom start tokens).getLast?) :
    range.2 = start + (shownChars tokens).length := by
  induction tokens generalizing start with
  | nil => cases h
  | cons token rest ih =>
    rw [shownChars, List.flatMap_cons, List.length_append, String.length_toList, ← Nat.add_assoc]
    rw [boundariesFrom, List.getLast?_cons] at h
    cases hlast : (boundariesFrom (start + token.shown.length) rest).getLast? with
    | some last =>
      obtain rfl : last = range := by simpa [hlast] using h
      exact ih _ hlast
    | none =>
      -- There is no range behind the first one, so there is no token either.
      have hrest : rest = [] := by
        rw [← List.length_eq_zero_iff, ← length_boundariesFrom (start + token.shown.length) rest,
          List.getLast?_eq_none_iff.1 hlast, List.length_nil]
      obtain rfl : (start, start + token.shown.length) = range := by simpa [hlast] using h
      simp [hrest]

/-- Behind any text, the range of a token cuts out what the token shows. -/
theorem forall₂_boundariesFrom (before : List Char) :
    List.Forall₂ (fun range token => range.1 ≤ range.2 ∧
        (before ++ shownChars tokens).extract range.1 range.2 = token.shown.toList)
      (boundariesFrom before.length tokens) tokens := by
  induction tokens generalizing before with
  | nil => exact .nil
  | cons token rest ih =>
    have hbehind := ih (before ++ token.shown.toList)
    rw [List.length_append, String.length_toList, List.append_assoc] at hbehind
    refine .cons ⟨Nat.le_add_right _ _, ?_⟩ hbehind
    rw [shownChars, List.flatMap_cons, List.extract_eq_take_drop, List.drop_left,
      Nat.add_sub_cancel_left, ← String.length_toList, List.take_left]

/-- There is a range for each token.  The first range begins at zero, each other one where the one
before it ends, and the last one ends with the text of the template.  What a range cuts out of this
text is what its token shows. -/
theorem boundaries_tile_shown (t : Template) :
    t.boundaries.length = t.tokens.length ∧
    (∀ range ∈ t.boundaries.head?, range.1 = 0) ∧
    (t.boundaries.IsChain fun range next => next.1 = range.2) ∧
    (∀ range ∈ t.boundaries.getLast?, range.2 = t.shown.length) ∧
    List.Forall₂ (fun range token => range.1 ≤ range.2 ∧ cut t.shown range = token.shown)
      t.boundaries t.tokens := by
  refine ⟨length_boundariesFrom 0 t.tokens, fun _ => head?_boundariesFrom 0 t.tokens,
    isChain_boundariesFrom 0 t.tokens, fun range hrange => ?_, ?_⟩
  · rw [← String.length_toList, toList_shown, getLast?_boundariesFrom 0 t.tokens hrange,
      Nat.zero_add]
  · refine (forall₂_boundariesFrom t.tokens []).imp fun range token hcut => ⟨hcut.1, ?_⟩
    rw [cut, toList_shown, ← String.toList_inj, String.toList_ofList]
    exact hcut.2

/-- Characters of two and three bytes, a text without any, and a field. -/
def sampleAccented : Template :=
  { key := "accented"
    name := "Accented"
    tokens := [.text "é—", .text "", .field .session]
    extension := .lower
    isBuiltin := false }

theorem boundaries_tile_shown_sample :
    (0, 2) ∈ sampleAccented.boundaries.head? ∧ (2, 11) ∈ sampleAccented.boundaries.getLast? ∧
      sampleAccented.shown.length = 11 ∧
      List.Forall₂ (fun range token => range.1 ≤ range.2 ∧
          cut sampleAccented.shown range = token.shown)
        [(0, 2), (2, 2), (2, 11)] sampleAccented.tokens := by
  have hfirst : (0, 2) ∈ sampleAccented.boundaries.head? := by decide +kernel
  have hlast : (2, 11) ∈ sampleAccented.boundaries.getLast? := by decide +kernel
  obtain ⟨-, -, -, hend, hcut⟩ := boundaries_tile_shown sampleAccented
  exact ⟨hfirst, hlast, (hend _ hlast).symm, hcut⟩

end Template

end PhotoIntake.Naming
