import PhotoIntake.Image.Codec
import PhotoIntake.Proofs.Json.RoundTrip
import PhotoIntake.Worker.Message

/-!
# Values that stand for data

A value stands for what a reader makes of it, if it has a text of its own.  Lists, values that may
be missing and messages stand for their content where the parts do.  The compact text of such a
value is a single line.

* `Codes`: a value stands for data.
* `Codes.list` and `Codes.option`: values made of values.
* `lineBreak_not_mem_chars`: no line break in a compact text.
-/

namespace PhotoIntake.Json

/-- The value has a text of its own and is read as the given data. -/
structure Codes {α : Type} (read : Json → Option α) (v : Json) (a : α) : Prop where
  isProper : v.isProper = true
  read_eq : read v = some a

section

variable {α : Type} {read : Json → Option α}

theorem codes_text (s : String) : Codes text? (.text s) s :=
  ⟨rfl, rfl⟩

theorem codes_count {n : Nat} (h : n < countBound) : Codes count? (ofNat n) n :=
  ⟨rfl, natBelow?_ofNat h⟩

theorem areProper_map {write : α → Json} {items : List α}
    (h : ∀ a ∈ items, (write a).isProper = true) : areProper (items.map write) = true := by
  induction items with
  | nil => rfl
  | cons a items ih =>
    rw [List.map_cons, areProper, h a List.mem_cons_self, Bool.true_and]
    exact ih fun a' ha' => h a' (List.mem_cons_of_mem a ha')

/-- A list stands for its items. -/
theorem Codes.list {write : α → Json} {items : List α} (h : ∀ a ∈ items, Codes read (write a) a) :
    Codes (listOf? read) (.array (items.map write)) items := by
  refine ⟨areProper_map fun a ha => (h a ha).isProper, ?_⟩
  rw [listOf?, items?, Option.bind_some]
  induction items with
  | nil => rfl
  | cons a items ih =>
    rw [List.map_cons, List.mapM_cons, (h a List.mem_cons_self).read_eq,
      ih fun a' ha' => h a' (List.mem_cons_of_mem a ha')]
    rfl

theorem codes_texts (texts : List String) : Codes texts? (ofTexts texts) texts :=
  .list fun s _ => codes_text s

/-- A value that may be missing stands for its content; null is left for a missing one. -/
theorem Codes.option {write : α → Json} {o : Option α} (hnull : read .null = none)
    (h : ∀ a ∈ o, Codes read (write a) a) : Codes (nullable? read) (ofOption write o) o := by
  cases o with
  | none => exact ⟨rfl, rfl⟩
  | some a =>
    obtain ⟨hproper, hread⟩ := h a rfl
    refine ⟨hproper, ?_⟩
    unfold nullable? ofOption
    split
    · next heq =>
      simp only at heq
      rw [heq, hnull] at hread
      cases hread
    · rw [hread]
      rfl

end

/-! ## Records and cases -/

@[simp]
theorem isProper_text (s : String) : isProper (.text s) = true :=
  rfl

@[simp]
theorem isProper_bool (b : Bool) : isProper (.bool b) = true :=
  rfl

@[simp]
theorem isProper_ofNat (n : Nat) : isProper (ofNat n) = true :=
  rfl

@[simp]
theorem isProper_object_nil : isProper (.object []) = true :=
  rfl

@[simp]
theorem isProper_object_cons (key : String) (v : Json) (rest : List (String × Json)) :
    isProper (.object ((key, v) :: rest)) = (v.isProper && isProper (.object rest)) := by
  simp only [isProper, areProperMembers]

namespace Record

variable {α : Type} {fields : List String} {members : List (String × Json)} {read : Json → Option α}
  {byPosition : Bool} {key field : String} {v : Json} {rest : List (String × Json)}

/-- An object whose members are the fields gives all of them. -/
@[simp]
theorem ofJson?_object (hfields : members.map (·.1) = fields) (hdistinct : fields.Nodup) :
    ofJson? fields (.object members) = some ⟨false, members⟩ := by
  have hgiven : (members.filter fun m => fields.contains m.1) = members :=
    List.filter_eq_self.2 fun m hm => by
      rw [List.contains_iff_mem, ← hfields]
      exact List.mem_map_of_mem hm
  rw [ofJson?, ofMembers?]
  simp only [hgiven, hfields, hdistinct, if_true]

@[simp]
theorem required_cons : (⟨byPosition, (key, v) :: rest⟩ : Record).required field read =
    if field = key then read v else (⟨byPosition, rest⟩ : Record).required field read := by
  by_cases h : field = key
  · simp [required, h]
  · simp [required, List.lookup_cons, h, beq_false_of_ne h]

@[simp]
theorem optional_cons : (⟨byPosition, (key, v) :: rest⟩ : Record).optional field read =
    if field = key then nullable? read v else (⟨byPosition, rest⟩ : Record).optional field read := by
  by_cases h : field = key
  · simp [optional, h]
  · simp [optional, List.lookup_cons, h, beq_false_of_ne h]

@[simp]
theorem defaulted_cons {default : α} :
    (⟨byPosition, (key, v) :: rest⟩ : Record).defaulted field read default =
      if field = key then read v
      else (⟨byPosition, rest⟩ : Record).defaulted field read default := by
  by_cases h : field = key
  · simp [defaulted, h]
  · simp [defaulted, List.lookup_cons, h, beq_false_of_ne h]

end Record

section

variable {name other : String} {content : Json}

@[simp]
theorem caseContent?_object : caseContent? (.object [(name, content)]) = some (name, content) :=
  rfl

@[simp]
theorem bareCase?_text : bareCase? (.text name) = some name :=
  rfl

/-- Only null leaves a case with a name bare. -/
@[simp]
theorem bareCase?_object_eq_some :
    bareCase? (.object [(name, content)]) = some other ↔ content = .null ∧ name = other := by
  cases content <;> simp [bareCase?]

/-- A case whose name is not among the bare ones is no bare case. -/
theorem bareCase?_object_bind {α : Type} {find : String → Option α} (h : find name = none) :
    (bareCase? (.object [(name, content)])).bind find = none := by
  rw [Option.bind_eq_none_iff]
  intro found hfound
  rw [← (bareCase?_object_eq_some.1 hfound).2, h]

end

/-! ## Compact texts are lines -/

theorem lineBreak_not_mem_escape (c : Char) : '\n' ∉ escape c := by
  have hdigit : ∀ n < 16, '\n' ≠ hexDigit n := by decide
  unfold escape
  split_ifs with _ _ hbreak _ _ _ _ hcontrol
  any_goals decide
  · have hhigh := hdigit (c.toNat / 16) (by omega)
    have hlow := hdigit (c.toNat % 16) (by omega)
    simp [hhigh, hlow]
  · simpa using Ne.symm hbreak

theorem lineBreak_not_mem_quote (s : String) : '\n' ∉ quote s := by
  simp [quote, lineBreak_not_mem_escape]

theorem lineBreak_not_mem_digits (n : Nat) : '\n' ∉ Decimal.digits n := fun h =>
  absurd (Decimal.isDigit_of_mem_digits h) (by decide)

theorem lineBreak_not_mem_number {n : Number} (h : n.places.all Char.isDigit = true) :
    '\n' ∉ n.chars := by
  have hplaces : '\n' ∉ n.places := fun hmem => absurd (List.all_eq_true.1 h _ hmem) (by decide)
  unfold Number.chars
  cases n.exponent <;> split_ifs <;> simp [hplaces, lineBreak_not_mem_digits]

mutual

/-- No line break stands in the compact text of a value. -/
theorem lineBreak_not_mem_chars : ∀ v : Json, v.isProper = true → '\n' ∉ chars v
  | .null, _ | .bool true, _ | .bool false, _ | .array [], _ | .object [], _ => by simp [chars]
  | .number n, h => by
    rw [chars]
    exact lineBreak_not_mem_number h
  | .text s, _ => by
    rw [chars]
    exact lineBreak_not_mem_quote s
  | .array (v :: rest), h => by
    rw [isProper, areProper, Bool.and_eq_true] at h
    simp [chars, lineBreak_not_mem_chars v h.1, lineBreak_not_mem_itemChars rest h.2]
  | .object ((key, v) :: rest), h => by
    rw [isProper, areProperMembers, Bool.and_eq_true] at h
    simp [chars, lineBreak_not_mem_quote, lineBreak_not_mem_chars v h.1,
      lineBreak_not_mem_memberChars rest h.2]

theorem lineBreak_not_mem_itemChars : ∀ items, areProper items = true → '\n' ∉ itemChars items
  | [], _ => by simp [itemChars]
  | v :: rest, h => by
    rw [areProper, Bool.and_eq_true] at h
    simp [itemChars, lineBreak_not_mem_chars v h.1, lineBreak_not_mem_itemChars rest h.2]

theorem lineBreak_not_mem_memberChars :
    ∀ members, areProperMembers members = true → '\n' ∉ memberChars members
  | [], _ => by simp [memberChars]
  | (key, v) :: rest, h => by
    rw [areProperMembers, Bool.and_eq_true] at h
    simp [memberChars, lineBreak_not_mem_quote, lineBreak_not_mem_chars v h.1,
      lineBreak_not_mem_memberChars rest h.2]

end

theorem lineBreak_not_mem_write {v : Json} (h : v.isProper = true) : '\n' ∉ v.write.toList := by
  rw [write, String.toList_ofList]
  exact lineBreak_not_mem_chars v h

end PhotoIntake.Json
