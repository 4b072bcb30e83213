import PhotoIntake.Naming.Builtin
import PhotoIntake.Proofs.Calendar.Dates

/-!
# Templates with a meaning

The calendar has a first day, so the day before the download may be missing.  Rendering shows the
day of the download in its place.  This module says that it does so only where there is no meaning:
everywhere else a template renders as if nothing stood in.

* `Template.render?_eq_some_iff`: what a rendering without the stand-in gives.
* `Template.hasMeaning_iff`: a template has a meaning, unless it asks for the day before the first.
* `hasMeaning_of_mem_builtins`: a built-in template always has one.
-/

namespace PhotoIntake.Naming

/-! ## Rendering without a stand-in -/

/-- The date-time that a date field shows, if there is one. -/
def Occasion.dateOf? (o : Occasion) : DateSource → Option Calendar.DateTime
  | .yesterday => o.time.dayBefore?
  | source => some (o.dateOf source)

/-- What the field writes, if it has something to show. -/
def Field.render? (o : Occasion) : Field → Option String
  | date source format => (o.dateOf? source).map format.pattern.text
  | f => some (f.render o)

/-- What the token writes, if it has something to show. -/
def Token.render? (o : Occasion) : Token → Option String
  | text content => some content
  | field f => f.render? o

namespace Template

/-- What the tokens of the template write, if each of them has something to show. -/
def renderTokens? (t : Template) (o : Occasion) : Option String :=
  (t.tokens.mapM (Token.render? o)).map String.join

/-- What the template writes, if each of its tokens has something to show. -/
def render? (t : Template) (o : Occasion) : Purpose → Option String
  | .image => (t.renderTokens? o).map (· ++ t.extension.apply o.image.extension)
  | .destination => t.renderTokens? o

end Template

variable {o : Occasion}

/-- The stand-in is shown in the day before only, and only where that is missing. -/
theorem Field.render?_eq (f : Field) :
    f.render? o = if f.hasMeaning o then some (f.render o) else none := by
  cases f with
  | date source format =>
    cases source with
    | yesterday =>
      unfold render? render hasMeaning Occasion.dateOf? Occasion.dateOf
      cases o.time.dayBefore? <;> rfl
    | _ => rfl
  | _ => rfl

theorem Token.render?_eq (token : Token) :
    token.render? o = if token.hasMeaning o then some (token.render o) else none := by
  cases token with
  | text content => rfl
  | field f => exact f.render?_eq

theorem Token.mapM_render?_eq (tokens : List Token) :
    tokens.mapM (Token.render? o) =
      if tokens.all (Token.hasMeaning o) then some (tokens.map (Token.render o)) else none := by
  induction tokens with
  | nil => rfl
  | cons token rest ih =>
    rw [List.mapM_cons, ih, token.render?_eq, List.all_cons, List.map_cons]
    cases token.hasMeaning o <;> cases rest.all (Token.hasMeaning o) <;> rfl

namespace Template

variable {t : Template}

theorem renderTokens?_eq :
    t.renderTokens? o = if t.hasMeaning o then some (t.renderTokens o) else none := by
  rw [renderTokens?, Token.mapM_render?_eq, hasMeaning, renderTokens]
  split <;> rfl

/-- A template that has a meaning renders as it does without a stand-in, and one that has none does
not render without it. -/
theorem render?_eq_some_iff {purpose : Purpose} {s : String} :
    t.render? o purpose = some s ↔ t.hasMeaning o = true ∧ t.render o purpose = s := by
  cases purpose <;> simp only [render?, render, renderTokens?_eq]
  all_goals cases t.hasMeaning o <;> simp

/-! ## Where there is a meaning -/

/-- Only the day before the first one has no meaning, and only for a template that asks for it. -/
theorem hasMeaning_iff :
    t.hasMeaning o = true ↔ o.time.dayBefore?.isSome = true ∨
      ∀ format, .field (.date .yesterday format) ∉ t.tokens := by
  rw [hasMeaning, List.all_eq_true]
  constructor
  · refine fun h => or_iff_not_imp_right.2 fun hmem => ?_
    obtain ⟨format, hmem⟩ := not_forall_not.1 hmem
    exact h _ hmem
  · intro h token hmem
    rcases token with content | ⟨⟨⟩, format⟩ | _
    case field.date.yesterday => exact h.resolve_right fun hnever => hnever format hmem
    all_goals rfl

/-- After the first day of the calendar every template has a meaning. -/
theorem hasMeaning_of_date_ne (h : o.time.date ≠ Calendar.Date.earliest) : t.hasMeaning o = true :=
  hasMeaning_iff.2 (Or.inl (Calendar.DateTime.isSome_dayBefore?_iff.2 (Or.inl h)))

end Template

/-- No built-in template asks for the day before. -/
theorem hasMeaning_of_mem_builtins {t : Template} {purpose : Purpose} (h : t ∈ builtins purpose) :
    t.hasMeaning o = true := by
  refine Template.hasMeaning_iff.2 (Or.inr fun format hmem => ?_)
  cases purpose <;>
    simp only [builtins, builtin, captured, List.mem_cons, List.not_mem_nil, or_false] at h
  · rcases h with rfl | rfl | rfl <;> simp at hmem
  · rcases h with rfl | rfl <;> simp at hmem

end PhotoIntake.Naming
