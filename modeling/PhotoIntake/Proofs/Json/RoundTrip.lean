import PhotoIntake.Proofs.Json.Scanners

/-!
# What is written is read back

The compact and the indented form of a value differ in their spacing only.  A `Layout` says what
spacing stands at each place, and both forms are layouts of the same text, so one argument shows
that either of them reads as the value.

* `Layout.value?_laid`: the value of a layout is read back, with enough fuel for its text.
* `read?_write` and `read?_writeIndented`: the two forms, for every value that `isProper`.
-/

namespace PhotoIntake.Json

/-! ## Layouts -/

/-- What spacing stands where: in front of what begins a line at a level, and after a colon. -/
structure Layout where
  line : Nat → List Char
  gap : List Char
  spacing_line : ∀ level, Spacing (line level)
  spacing_gap : Spacing gap

namespace Layout

/-- No spacing at all. -/
def compact : Layout :=
  ⟨fun _ => [], [], fun _ => rfl, rfl⟩

/-- Every item and member on a line of its own. -/
def indented : Layout where
  line := newLine
  gap := [' ']
  spacing_line level := by simp [Spacing, newLine, isSpacing]
  spacing_gap := rfl

mutual

/-- The form of a value that stands at a level. -/
def laid (l : Layout) (level : Nat) : Json → List Char
  | .array (v :: rest) =>
    '[' :: (l.line (level + 1) ++ (l.laid (level + 1) v ++ l.laidItems level rest))
  | .object ((key, v) :: rest) =>
    '{' :: (l.line (level + 1) ++ (quote key ++ ':' ::
      (l.gap ++ (l.laid (level + 1) v ++ l.laidMembers level rest))))
  | v => chars v

/-- The items after the first and the closing bracket. -/
def laidItems (l : Layout) (level : Nat) : List Json → List Char
  | [] => l.line level ++ [']']
  | v :: rest => ',' :: (l.line (level + 1) ++ (l.laid (level + 1) v ++ l.laidItems level rest))

/-- The members after the first and the closing brace. -/
def laidMembers (l : Layout) (level : Nat) : List (String × Json) → List Char
  | [] => l.line level ++ ['\x7d']
  | (key, v) :: rest =>
    ',' :: (l.line (level + 1) ++ (quote key ++ ':' ::
      (l.gap ++ (l.laid (level + 1) v ++ l.laidMembers level rest))))

end

mutual

theorem laid_compact (level : Nat) : ∀ v, compact.laid level v = chars v
  | .null | .bool _ | .number _ | .text _ | .brokenText | .array [] | .object [] => by
    simp only [laid]
  | .array (v :: rest) => by
    rw [laid, chars, laid_compact (level + 1) v, laidItems_compact level rest]
    rfl
  | .object ((key, v) :: rest) => by
    rw [laid, chars, laid_compact (level + 1) v, laidMembers_compact level rest]
    rfl

theorem laidItems_compact (level : Nat) : ∀ items, compact.laidItems level items = itemChars items
  | [] => by simp [laidItems, itemChars, compact]
  | v :: rest => by
    rw [laidItems, itemChars, laid_compact (level + 1) v, laidItems_compact level rest]
    rfl

theorem laidMembers_compact (level : Nat) :
    ∀ members, compact.laidMembers level members = memberChars members
  | [] => by simp [laidMembers, memberChars, compact]
  | (key, v) :: rest => by
    rw [laidMembers, memberChars, laid_compact (level + 1) v, laidMembers_compact level rest]
    rfl

end

mutual

theorem laid_indented (level : Nat) : ∀ v, indented.laid level v = indentedChars level v
  | .null | .bool _ | .number _ | .text _ | .brokenText | .array [] | .object [] => by
    simp only [laid, indentedChars]
  | .array (v :: rest) => by
    rw [laid, indentedChars, laid_indented (level + 1) v, laidItems_indented level rest]
    simp [indented]
  | .object ((key, v) :: rest) => by
    rw [laid, indentedChars, laid_indented (level + 1) v, laidMembers_indented level rest]
    simp [indented]

theorem laidItems_indented (level : Nat) :
    ∀ items, indented.laidItems level items = indentedItems level items
  | [] => by simp [laidItems, indentedItems, indented]
  | v :: rest => by
    rw [laidItems, indentedItems, laid_indented (level + 1) v, laidItems_indented level rest]
    simp [indented]

theorem laidMembers_indented (level : Nat) :
    ∀ members, indented.laidMembers level members = indentedMembers level members
  | [] => by simp [laidMembers, indentedMembers, indented]
  | (key, v) :: rest => by
    rw [laidMembers, indentedMembers, laid_indented (level + 1) v,
      laidMembers_indented level rest]
    simp [indented]

end

end Layout

/-! ## Values -/

mutual

/-- The value has a text of its own: its texts have characters and its places are digits. -/
def isProper : Json → Bool
  | .number n => n.places.all Char.isDigit
  | .brokenText => false
  | .array items => areProper items
  | .object members => areProperMembers members
  | _ => true

def areProper : List Json → Bool
  | [] => true
  | v :: rest => isProper v && areProper rest

def areProperMembers : List (String × Json) → Bool
  | [] => true
  | (_, v) :: rest => isProper v && areProperMembers rest

end

theorem endsNumber_cons {c : Char} (h : c.isDigit = false ∧ c ≠ '.' ∧ c ≠ 'e' ∧ c ≠ 'E')
    (s : List Char) : EndsNumber (c :: s) := by
  rintro c' ⟨⟩
  exact h

theorem endsNumber_append {space s : List Char} (hspace : Spacing space) (h : EndsNumber s) :
    EndsNumber (space ++ s) := by
  cases space with
  | nil => exact h
  | cons c space =>
    have hc : isSpacing c = true := by
      rw [Spacing, List.all_cons, Bool.and_eq_true] at hspace
      exact hspace.1
    refine endsNumber_cons ?_ _
    simp only [isSpacing, Bool.or_eq_true, beq_iff_eq] at hc
    rcases hc with ((rfl | rfl) | rfl) | rfl <;> decide

/-- The first character of a number. -/
theorem chars_number_cons (n : Number) :
    ∃ c s, n.chars = c :: s ∧ (c = '-' ∨ c.isDigit = true) := by
  rw [Number.chars_eq]
  cases n.negative with
  | true => exact ⟨'-', _, rfl, Or.inl rfl⟩
  | false =>
    cases hdigits : Decimal.digits n.whole with
    | nil => exact absurd hdigits (Decimal.digits_ne_nil _)
    | cons c run =>
      exact ⟨c, _, rfl, Or.inr (Decimal.isDigit_of_mem_digits (n := n.whole) (by simp [hdigits]))⟩

theorem isSpacing_of_number {c : Char} (hc : c = '-' ∨ c.isDigit = true) :
    isSpacing c = false ∧ c ≠ ']' := by
  refine ⟨Bool.eq_false_iff.2 fun hspace => ?_, ?_⟩
  · simp only [isSpacing, Bool.or_eq_true, beq_iff_eq] at hspace
    rcases hspace with ((rfl | rfl) | rfl) | rfl <;> exact absurd hc (by decide)
  · rintro rfl
    exact absurd hc (by decide)

/-- A value that begins like a number is read as a number. -/
theorem value?_of_number {c : Char} (hc : c = '-' ∨ c.isDigit = true) (fuel : Nat) (s : List Char) :
    value? (fuel + 1) (c :: s) = number? (c :: s) := by
  unfold value?
  rw [skipSpacing_cons (isSpacing_of_number hc).1]
  split
  all_goals
    first
    | rfl
    | next heq =>
      obtain ⟨rfl, -⟩ := List.cons.inj heq
      exact absurd hc (by decide)

namespace Layout

variable (l : Layout) (level : Nat)

/-- A value begins with a character that is neither spacing nor a closing bracket. -/
theorem laid_cons (v : Json) :
    ∃ c s, l.laid level v = c :: s ∧ isSpacing c = false ∧ c ≠ ']' := by
  match v with
  | .number n =>
    obtain ⟨c, s, hchars, hc⟩ := chars_number_cons n
    exact ⟨c, s, hchars, isSpacing_of_number hc⟩
  | .null => exact ⟨'n', _, rfl, by decide⟩
  | .bool true => exact ⟨'t', _, rfl, by decide⟩
  | .bool false => exact ⟨'f', _, rfl, by decide⟩
  | .text _ | .brokenText => exact ⟨'"', _, rfl, by decide⟩
  | .array [] | .array (_ :: _) => exact ⟨'[', _, rfl, by decide⟩
  | .object [] | .object ((_, _) :: _) => exact ⟨'\x7b', _, rfl, by decide⟩

theorem laidItems_ends (items : List Json) (s : List Char) :
    EndsNumber (l.laidItems level items ++ s) := by
  cases items with
  | nil =>
    rw [laidItems, List.append_assoc]
    exact endsNumber_append (l.spacing_line level) (endsNumber_cons (by decide) s)
  | cons v rest => exact endsNumber_cons (by decide) _

theorem laidMembers_ends (members : List (String × Json)) (s : List Char) :
    EndsNumber (l.laidMembers level members ++ s) := by
  cases members with
  | nil =>
    rw [laidMembers, List.append_assoc]
    exact endsNumber_append (l.spacing_line level) (endsNumber_cons (by decide) s)
  | cons member rest => exact endsNumber_cons (by decide) _

theorem length_laidItems_pos (items : List Json) : 0 < (l.laidItems level items).length := by
  cases items <;> simp [laidItems]

theorem length_laidMembers_pos (members : List (String × Json)) :
    0 < (l.laidMembers level members).length := by
  cases members <;> simp [laidMembers]

theorem length_laid_pos (v : Json) : 0 < (l.laid level v).length := by
  obtain ⟨c, s, hlaid, -⟩ := l.laid_cons level v
  simp [hlaid]

end Layout

theorem skipSpacing_quote (text : String) (s : List Char) :
    skipSpacing (quote text ++ s) = '"' :: (text.toList.flatMap escape ++ '"' :: s) := by
  rw [quote, List.cons_append, List.cons_append, skipSpacing_cons (by decide), List.append_assoc]
  rfl

theorem ofMembers_map (members : List (String × Json)) :
    ofMembers (members.map (Prod.map some id)) = .object members := by
  have hall : members.mapM (fun member => some (member.1, member.2)) = some members := by
    induction members with
    | nil => rfl
    | cons member rest ih => simp [List.mapM_cons, ih]
  simp [ofMembers, List.mapM_map, Function.comp_def, hall]

namespace Layout

mutual

/-- The layout of a value is read back, whatever follows it that does not go on with a number. -/
theorem value?_laid (l : Layout) (level : Nat) (v : Json) (hv : v.isProper = true) {s : List Char}
    (hs : EndsNumber s) (fuel : Nat) (hfuel : 2 * (l.laid level v).length ≤ fuel) :
    value? fuel (l.laid level v ++ s) = some (v, s) := by
  have hpos := l.length_laid_pos level v
  obtain ⟨fuel, rfl⟩ : ∃ f, fuel = f + 1 := ⟨fuel - 1, by omega⟩
  match v with
  | .null | .bool true | .bool false | .array [] | .object [] => rfl
  | .number n =>
    obtain ⟨c, t, hchars, hc⟩ := chars_number_cons n
    have hread := number?_chars n (List.all_eq_true.1 hv) hs
    rw [show l.laid level (.number n) = n.chars from rfl, ← hread, hchars, List.cons_append,
      value?_of_number hc]
  | .text content =>
    have hread := quoted?_quote content s
    rw [show l.laid level (.text content) = quote content from rfl, value?, skipSpacing_quote]
    exact hread
  | .brokenText => exact absurd hv Bool.false_ne_true
  | .array (v :: rest) =>
    rw [isProper, areProper, Bool.and_eq_true] at hv
    rw [laid, List.length_cons, List.length_append] at hfuel
    have hitems := l.itemsAfter?_laid level v rest hv.1 hv.2 s fuel (by omega)
    obtain ⟨c, t, hlaid, hc, hne⟩ := l.laid_cons (level + 1) v
    rw [laid, List.cons_append, List.append_assoc, List.append_assoc, value?,
      skipSpacing_cons (by decide)]
    have hopen : skipSpacing
        (l.line (level + 1) ++ (l.laid (level + 1) v ++ (l.laidItems level rest ++ s))) =
          c :: (t ++ (l.laidItems level rest ++ s)) := by
      rw [skipSpacing_append (l.spacing_line _), hlaid, List.cons_append, skipSpacing_cons hc]
    simp only [hitems, hopen]
    split
    · next heq => exact absurd (List.cons.inj heq).1 hne
    · rfl
  | .object ((key, v) :: rest) =>
    rw [isProper, areProperMembers, Bool.and_eq_true] at hv
    simp only [laid, List.length_cons, List.length_append] at hfuel
    have hmembers := l.membersAfter?_laid level key v rest hv.1 hv.2 s fuel (by
      simp only [List.length_append]
      omega)
    have hopen : skipSpacing (l.line (level + 1) ++ (quote key ++ (':' ::
        (l.gap ++ (l.laid (level + 1) v ++ (l.laidMembers level rest ++ s)))))) =
          '"' :: (key.toList.flatMap escape ++ '"' :: ':' ::
            (l.gap ++ (l.laid (level + 1) v ++ (l.laidMembers level rest ++ s)))) := by
      rw [skipSpacing_append (l.spacing_line _), skipSpacing_quote]
    simp only [laid, List.cons_append, List.append_assoc]
    rw [value?, skipSpacing_cons (by decide)]
    simp only [hmembers, hopen, Option.map_some, ofMembers_map]
    rfl
termination_by fuel

/-- The items of an array are read back up to the closing bracket. -/
theorem itemsAfter?_laid (l : Layout) (level : Nat) (v : Json) (rest : List Json)
    (hv : v.isProper = true) (hrest : areProper rest = true) (s : List Char) (fuel : Nat)
    (hfuel : 2 * (l.laid (level + 1) v ++ l.laidItems level rest).length ≤ fuel) :
    itemsAfter? fuel
      (l.line (level + 1) ++ (l.laid (level + 1) v ++ (l.laidItems level rest ++ s))) =
        some (v :: rest, s) := by
  have hpos := l.length_laidItems_pos level rest
  rw [List.length_append] at hfuel
  obtain ⟨fuel, rfl⟩ : ∃ f, fuel = f + 1 := ⟨fuel - 1, by omega⟩
  have hvalue := l.value?_laid (level + 1) v hv (l.laidItems_ends level rest s) fuel
    (by omega)
  rw [itemsAfter?, value?_append (l.spacing_line _), hvalue]
  match rest with
  | [] =>
    simp only [laidItems, List.append_assoc, skipSpacing_append (l.spacing_line _)]
    rfl
  | v' :: rest =>
    rw [areProper, Bool.and_eq_true] at hrest
    rw [laidItems, List.length_cons, List.length_append] at hfuel
    have hitems := l.itemsAfter?_laid level v' rest hrest.1 hrest.2 s fuel (by omega)
    simp only [laidItems, List.cons_append, List.append_assoc]
    rw [skipSpacing_cons (by decide)]
    simp only [hitems]
    rfl
termination_by fuel

/-- The members of an object are read back up to the closing brace. -/
theorem membersAfter?_laid (l : Layout) (level : Nat) (key : String) (v : Json)
    (rest : List (String × Json)) (hv : v.isProper = true) (hrest : areProperMembers rest = true)
    (s : List Char) (fuel : Nat)
    (hfuel : 2 * (l.laid (level + 1) v ++ l.laidMembers level rest).length ≤ fuel) :
    membersAfter? fuel (l.line (level + 1) ++ (quote key ++ (':' ::
      (l.gap ++ (l.laid (level + 1) v ++ (l.laidMembers level rest ++ s)))))) =
        some (((key, v) :: rest).map (Prod.map some id), s) := by
  have hpos := l.length_laidMembers_pos level rest
  rw [List.length_append] at hfuel
  obtain ⟨fuel, rfl⟩ : ∃ f, fuel = f + 1 := ⟨fuel - 1, by omega⟩
  have hvalue := l.value?_laid (level + 1) v hv (l.laidMembers_ends level rest s) fuel
    (by omega)
  rw [membersAfter?, skipSpacing_append (l.spacing_line _), skipSpacing_quote]
  simp only [quoted?_quote]
  rw [skipSpacing_cons (by decide)]
  simp only [value?_append l.spacing_gap, hvalue]
  match rest with
  | [] =>
    simp only [laidMembers, List.append_assoc, skipSpacing_append (l.spacing_line _)]
    rfl
  | (key', v') :: rest =>
    rw [areProperMembers, Bool.and_eq_true] at hrest
    simp only [laidMembers, List.length_cons, List.length_append] at hfuel
    have hmembers := l.membersAfter?_laid level key' v' rest hrest.1 hrest.2 s fuel (by
      simp only [List.length_append]
      omega)
    simp only [laidMembers, List.cons_append, List.append_assoc]
    rw [skipSpacing_cons (by decide)]
    simp only [hmembers]
    rfl
termination_by fuel

end

end Layout

/-! ## Texts of values -/

/-- Every layout of a value is a text of it. -/
theorem readChars?_laid (l : Layout) {v : Json} (hv : v.isProper = true) :
    readChars? (l.laid 0 v) = some v := by
  have hread := l.value?_laid 0 v hv (s := []) (by rintro c ⟨⟩)
    (2 * (l.laid 0 v).length + 2) (by omega)
  rw [List.append_nil] at hread
  rw [readChars?, hread]
  rfl

/-- The compact text of a value is read back. -/
theorem read?_write {v : Json} (hv : v.isProper = true) : read? v.write = some v := by
  rw [read?, write, String.toList_ofList, ← Layout.laid_compact 0 v, readChars?_laid _ hv]

/-- The indented text of a value is read back. -/
theorem read?_writeIndented {v : Json} (hv : v.isProper = true) :
    read? v.writeIndented = some v := by
  rw [read?, writeIndented, String.toList_ofList, ← Layout.laid_indented 0 v, readChars?_laid _ hv]

/-- So there is a text. -/
theorem isEmpty_writeIndented {v : Json} (hv : v.isProper = true) :
    v.writeIndented.toUTF8.isEmpty = false := by
  have hread := read?_writeIndented hv
  have hne : v.writeIndented ≠ "" := fun hempty => by
    rw [hempty] at hread
    exact absurd hread (by simp [show read? "" = none by decide])
  simpa [ByteArray.isEmpty, String.utf8ByteSize_eq_zero_iff] using hne

theorem natBelow?_ofNat_eq_some_iff {bound count n : Nat} :
    natBelow? bound (ofNat count) = some n ↔ count = n ∧ n < bound := by
  rw [ofNat, natBelow?, Option.filter_eq_some_iff, decide_eq_true_eq]
  exact and_congr_left fun _ => ⟨Option.some.inj, congrArg some⟩

/-- A count below the bound is read back. -/
theorem natBelow?_ofNat {bound n : Nat} (h : n < bound) : natBelow? bound (ofNat n) = some n :=
  natBelow?_ofNat_eq_some_iff.2 ⟨rfl, h⟩

end PhotoIntake.Json
