import PhotoIntake.Naming.Edit
import Mathlib.Data.List.Nodup
import Mathlib.Tactic.Common

/-!
# Templates that can be used

Templates of the user come from a file that anybody may have written, and from edits.  Each of these
doors has checks of its own.  This module says what all of them let through, and that nothing else
ever stands on a shelf.

* `Shelf.Usable`: keys in increasing order, none of them builtin, tokens fit for the purpose.
* `Shelf.Usable.insert`, `erase` and `change`: what edits do to a shelf keeps it usable.
* `usable_ofJson?`: so does reading whatever a file holds.
* `Edit.apply_cases`: an edit changes the shelf of its purpose alone.
* `served_templates`: what a collection serves after any history.
-/

namespace PhotoIntake.Naming

variable {purpose : Purpose} {shelf : Shelf} {t t' : Template} {key : String}

/-! ## Valid templates -/

namespace Template

/-- A template passes the check of a purpose if every token of it is allowed there. -/
theorem validate_eq_ok_iff : t.validate purpose = .ok () ↔ t.isValidFor purpose = true := by
  unfold validate isValidFor
  cases hfind : t.tokens.find? fun token => !token.isAllowedIn purpose with
  | none => simpa using List.find?_eq_none.1 hfind
  | some token =>
    have hmem := List.mem_of_find?_eq_some hfind
    have hrefused := List.find?_some hfind
    simp only [reduceCtorEq, false_iff, List.all_eq_true]
    intro hall
    simp [hall token hmem] at hrefused

/-- A template that may stand on the user's shelf of a purpose. -/
structure IsOwn (purpose : Purpose) (t : Template) : Prop where
  key : isBuiltinKey purpose t.key = false
  valid : t.isValidFor purpose = true
  unmarked : t.isBuiltin = false

end Template

/-! ## Shelves -/

namespace Shelf

/-- The keys are in strictly increasing order. -/
def Sorted (shelf : Shelf) : Prop :=
  List.Pairwise (fun t t' : Template => t.key < t'.key) shelf

/-- The shelf is in order, and every template of it may stand there. -/
structure Usable (purpose : Purpose) (shelf : Shelf) : Prop where
  sorted : shelf.Sorted
  own : ∀ t ∈ shelf, t.IsOwn purpose

/-- No two templates of a shelf in order have one key. -/
theorem Sorted.nodup_keys (h : shelf.Sorted) : (List.map Template.key shelf).Nodup := by
  refine List.pairwise_map.2 (h.imp fun {t t'} hlt heq => ?_)
  exact String.lt_irrefl t'.key (heq ▸ hlt)

/-- What stands on a shelf after an insertion is new or stood there before. -/
theorem mem_insert (h : t' ∈ shelf.insert t) : t' = t ∨ t' ∈ shelf := by
  induction shelf with
  | nil => exact Or.inl (List.mem_singleton.1 h)
  | cons first rest ih =>
    unfold insert at h
    split_ifs at h with hbefore hsame
    · exact List.mem_cons.1 h
    · exact (List.mem_cons.1 h).imp_right (List.mem_cons_of_mem first)
    · rcases List.mem_cons.1 h with rfl | hrest
      · exact Or.inr List.mem_cons_self
      · exact (ih hrest).imp_right (List.mem_cons_of_mem first)

/-- An insertion keeps the order. -/
theorem Sorted.insert (h : shelf.Sorted) (t : Template) : (shelf.insert t).Sorted := by
  induction shelf with
  | nil => exact List.pairwise_singleton _ t
  | cons first rest ih =>
    obtain ⟨hfirst, hrest⟩ := List.pairwise_cons.1 h
    unfold Shelf.insert
    split_ifs with hbefore hsame
    · refine List.pairwise_cons.2 ⟨fun t' ht' => ?_, h⟩
      rcases List.mem_cons.1 ht' with rfl | hmem
      · exact hbefore
      · exact String.lt_trans hbefore (hfirst t' hmem)
    · exact List.pairwise_cons.2 ⟨hsame ▸ hfirst, hrest⟩
    · refine List.pairwise_cons.2 ⟨fun t' ht' => ?_, ih hrest⟩
      rcases mem_insert ht' with rfl | hmem
      · exact Std.lt_of_le_of_ne (String.not_lt.1 hbefore) (Ne.symm hsame)
      · exact hfirst t' hmem

namespace Usable

theorem nil (purpose : Purpose) : Usable purpose [] :=
  ⟨List.Pairwise.nil, fun _ h => absurd h List.not_mem_nil⟩

theorem insert (h : Usable purpose shelf) (ht : t.IsOwn purpose) :
    Usable purpose (shelf.insert t) where
  sorted := h.sorted.insert t
  own t' ht' := by
    rcases mem_insert ht' with rfl | hmem
    · exact ht
    · exact h.own t' hmem

theorem erase (h : Usable purpose shelf) (key : String) : Usable purpose (shelf.erase key) where
  sorted := h.sorted.sublist List.filter_sublist
  own t ht := h.own t (List.mem_filter.1 ht |>.1)

/-- A change that leaves keys, tokens and marks alone keeps the shelf usable. -/
theorem change (h : Usable purpose shelf) (key : String) {f : Template → Template}
    (hkey : ∀ t, (f t).key = t.key) (hown : ∀ t, t.IsOwn purpose → (f t).IsOwn purpose) :
    Usable purpose (shelf.change key f) where
  sorted := by
    refine h.sorted.map _ fun t t' hlt => ?_
    have hsame (t : Template) : (if t.key = key then f t else t).key = t.key := by
      split_ifs
      · exact hkey t
      · rfl
    rwa [hsame, hsame]
  own t ht := by
    obtain ⟨t', ht', rfl⟩ := List.mem_map.1 ht
    split_ifs
    · exact hown t' (h.own t' ht')
    · exact h.own t' ht'

end Usable

/-! ## Reading a shelf -/

/-- A stored template that can be used may stand on the shelf once its mark is off. -/
theorem isOwn_of_isUsable (h : isUsable purpose key t = true) :
    Template.IsOwn purpose { t with isBuiltin := false } := by
  simp only [isUsable, Bool.and_eq_true, Bool.not_eq_true', beq_iff_eq] at h
  obtain ⟨⟨rfl, hkey⟩, hvalid⟩ := h
  exact ⟨hkey, hvalid, rfl⟩

/-- Whatever is read as a shelf can be used. -/
theorem usable_ofJson? {v : Json} (h : ofJson? purpose v = some shelf) : Usable purpose shelf := by
  unfold ofJson? at h
  split at h
  · obtain ⟨members, -, hread⟩ := Option.bind_eq_some_iff.1 h
    obtain rfl := Option.some.inj hread
    refine List.foldlRecOn _ _ (Usable.nil purpose) fun shelf husable m hm => ?_
    have hkept : isUsable purpose m.1 m.2 = true := (List.mem_filter.1 hm).2
    exact husable.insert (isOwn_of_isUsable hkept)
  · simp at h

end Shelf

/-! ## Collections -/

namespace Collection

variable {c c' : Collection}

@[simp] theorem shelf_withShelf (c : Collection) (purpose : Purpose) (shelf : Shelf) :
    (c.withShelf purpose shelf).shelf purpose = shelf := by
  cases purpose <;> rfl

theorem shelf_withShelf_of_ne {other : Purpose} (h : other ≠ purpose) (c : Collection)
    (shelf : Shelf) : (c.withShelf purpose shelf).shelf other = c.shelf other := by
  cases purpose <;> cases other <;> first | rfl | exact absurd rfl h

@[simp] theorem path_withShelf (c : Collection) (purpose : Purpose) (shelf : Shelf) :
    (c.withShelf purpose shelf).path = c.path := by
  cases purpose <;> rfl

/-- Both shelves of the collection can be used. -/
def Usable (c : Collection) : Prop :=
  ∀ purpose, (c.shelf purpose).Usable purpose

theorem Usable.withShelf (h : c.Usable) (hshelf : shelf.Usable purpose) :
    (c.withShelf purpose shelf).Usable := by
  intro other
  by_cases hsame : other = purpose
  · rw [hsame, shelf_withShelf]
    exact hshelf
  · rw [shelf_withShelf_of_ne hsame]
    exact h other

/-! ### Loading -/

/-- A shelf that is missing in the file is empty. -/
theorem usable_defaulted {r : Json.Record} {field : String}
    (h : r.defaulted field (Shelf.ofJson? purpose) [] = some shelf) : shelf.Usable purpose := by
  unfold Json.Record.defaulted at h
  split at h
  · exact Shelf.usable_ofJson? h
  · obtain rfl := Option.some.inj h
    exact .nil purpose

/-- Whatever is loaded can be used. -/
theorem usable_load (path : Path) (files : FileTree) : (load path files).Usable := by
  unfold load
  split
  · next image destination hread =>
    obtain ⟨v, -, hshelves⟩ := Option.bind_eq_some_iff.1 hread
    obtain ⟨r, -, hshelves⟩ := Option.bind_eq_some_iff.1 hshelves
    obtain ⟨image', himage, hshelves⟩ := Option.bind_eq_some_iff.1 hshelves
    obtain ⟨destination', hdestination, hshelves⟩ := Option.bind_eq_some_iff.1 hshelves
    obtain ⟨rfl, rfl⟩ : image' = image ∧ destination' = destination := by simpa using hshelves
    intro purpose
    cases purpose
    · exact usable_defaulted himage
    · exact usable_defaulted hdestination
  · intro purpose
    cases purpose <;> exact .nil _

@[simp] theorem path_load (path : Path) (files : FileTree) : (load path files).path = path := by
  unfold load
  split <;> rfl

/-! ### Edits -/

/-- The template of the user with a key is on the shelf. -/
theorem requireOwn_eq_ok (h : c.requireOwn purpose key = .ok t) :
    isBuiltinKey purpose key = false ∧ t ∈ c.shelf purpose ∧ t.key = key := by
  unfold requireOwn at h
  split_ifs at h with hbuiltin
  split at h
  · next t' hget =>
    obtain rfl := Except.ok.inj h
    exact ⟨by simpa using hbuiltin, List.mem_of_find?_eq_some hget,
      by simpa using List.find?_some hget⟩
  · cases h

theorem add_eq_ok (h : c.add purpose t = .ok c') :
    Template.IsOwn purpose { t with isBuiltin := false } ∧
      c' = c.withShelf purpose ((c.shelf purpose).insert { t with isBuiltin := false }) := by
  unfold add at h
  split_ifs at h with hbuiltin
  · cases h
  · cases hvalid : t.validate purpose with
    | error e => simp [hvalid, bind, Except.bind] at h
    | ok =>
      rw [hvalid] at h
      exact ⟨⟨by simpa using hbuiltin, Template.validate_eq_ok_iff.1 hvalid, rfl⟩,
        (Except.ok.inj h).symm⟩

theorem rename_eq_ok {name : String} (h : c.rename purpose key name = .ok c') :
    c' = c.withShelf purpose ((c.shelf purpose).change key fun t => { t with name }) := by
  unfold rename at h
  cases howned : c.requireOwn purpose key with
  | error e => simp [howned, bind, Except.bind] at h
  | ok t =>
    rw [howned] at h
    exact (Except.ok.inj h).symm

theorem redefine_eq_ok {tokens : List Token} {extension : Case}
    (h : c.redefine purpose key tokens extension = .ok c') :
    ∃ t, isBuiltinKey purpose key = false ∧ t ∈ c.shelf purpose ∧ t.key = key ∧
      Template.isValidFor { t with tokens, extension } purpose = true ∧
      c' = c.withShelf purpose ((c.shelf purpose).insert { t with tokens, extension }) := by
  unfold redefine at h
  cases howned : c.requireOwn purpose key with
  | error e => simp [howned, bind, Except.bind] at h
  | ok t =>
    obtain ⟨hbuiltin, hmem, hkey⟩ := requireOwn_eq_ok howned
    rw [howned] at h
    cases hvalid : Template.validate { t with tokens, extension } purpose with
    | error e => simp [hvalid, bind, Except.bind] at h
    | ok =>
      simp only [bind, Except.bind, hvalid] at h
      exact ⟨t, hbuiltin, hmem, hkey, Template.validate_eq_ok_iff.1 hvalid,
        (Except.ok.inj h).symm⟩

theorem delete_eq_ok (h : c.delete purpose key = .ok (t, c')) :
    c' = c.withShelf purpose ((c.shelf purpose).erase key) := by
  unfold delete at h
  cases howned : c.requireOwn purpose key with
  | error e => simp [howned, bind, Except.bind] at h
  | ok t' =>
    rw [howned] at h
    exact (congrArg Prod.snd (Except.ok.inj h)).symm

end Collection

namespace Edit

/-- The purpose whose templates an edit changes. -/
def concerns : Edit → Purpose
  | add purpose _ | redefine purpose _ _ _ | rename purpose _ _ | delete purpose _ => purpose

/-- An edit that is not refused changes the shelf of its purpose alone, and keeps it usable. -/
theorem apply_cases {c c' : Collection} {e : Edit} (h : e.apply c = .ok c') :
    ∃ shelf, c' = c.withShelf e.concerns shelf ∧
      ((c.shelf e.concerns).Usable e.concerns → shelf.Usable e.concerns) := by
  cases e with
  | add purpose t =>
    obtain ⟨hown, rfl⟩ := Collection.add_eq_ok h
    exact ⟨_, rfl, fun husable => husable.insert hown⟩
  | redefine purpose key tokens extension =>
    obtain ⟨t, hbuiltin, hmem, rfl, hvalid, rfl⟩ := Collection.redefine_eq_ok h
    exact ⟨_, rfl, fun husable => husable.insert ⟨hbuiltin, hvalid, (husable.own t hmem).unmarked⟩⟩
  | rename purpose key name =>
    obtain rfl := Collection.rename_eq_ok h
    exact ⟨_, rfl, fun husable =>
      husable.change key (fun _ => rfl) fun _ hown => ⟨hown.key, hown.valid, hown.unmarked⟩⟩
  | delete purpose key =>
    unfold apply at h
    cases hdelete : c.delete purpose key with
    | error e => simp [hdelete, Except.map] at h
    | ok result =>
      obtain rfl : result.2 = c' := by simpa [hdelete, Except.map] using h
      exact ⟨_, Collection.delete_eq_ok hdelete, fun husable => husable.erase key⟩

theorem usable {c c' : Collection} {e : Edit} (h : e.apply c = .ok c') (husable : c.Usable) :
    c'.Usable := by
  obtain ⟨shelf, rfl, hkept⟩ := apply_cases h
  exact husable.withShelf (hkept (husable e.concerns))

theorem path_apply {c c' : Collection} {e : Edit} (h : e.apply c = .ok c') :
    c'.path = c.path := by
  obtain ⟨shelf, rfl, -⟩ := apply_cases h
  exact Collection.path_withShelf c e.concerns shelf

end Edit

/-! ## What a collection serves -/

/-- Where keys are distinct, looking for one finds its template or none. -/
theorem find?_key_eq_some_iff {ts : List Template} (h : (ts.map (·.key)).Nodup) :
    ts.find? (·.key == key) = some t ↔ t ∈ ts ∧ t.key = key := by
  constructor
  · intro hfind
    exact ⟨List.mem_of_find?_eq_some hfind, by simpa using List.find?_some hfind⟩
  · rintro ⟨hmem, rfl⟩
    cases hfind : ts.find? (·.key == t.key) with
    | none => simpa using List.find?_eq_none.1 hfind t hmem
    | some t' =>
      have hkey : t'.key = t.key := by simpa using List.find?_some hfind
      rw [List.inj_on_of_nodup_map h (List.mem_of_find?_eq_some hfind) hmem hkey]

/-- What a builtin template is. -/
theorem builtins_spec (purpose : Purpose) :
    ((builtins purpose).map (·.key)).Nodup ∧
      ∀ t ∈ builtins purpose, t.isValidFor purpose = true ∧ t.isBuiltin = true := by
  cases purpose <;> decide +kernel

theorem isBuiltinKey_eq_true_iff :
    isBuiltinKey purpose key = true ↔ ∃ t ∈ builtins purpose, t.key = key := by
  simp [isBuiltinKey]

/-- The key of a template of the user is not the key of a builtin one. -/
theorem Template.IsOwn.key_ne (h : t.IsOwn purpose) (ht' : t' ∈ builtins purpose) :
    t'.key ≠ t.key := by
  intro heq
  have hbuiltin := isBuiltinKey_eq_true_iff.2 ⟨t', ht', heq⟩
  simp [h.key] at hbuiltin

/-- A builtin template is found by its key, whatever templates the user has. -/
theorem Collection.get?_key_of_mem_builtins (c : Collection) (ht : t ∈ builtins purpose) :
    c.get? purpose t.key = some t := by
  have hfind := (find?_key_eq_some_iff (builtins_spec purpose).1).2 ⟨ht, rfl⟩
  rw [Collection.get?, hfind, Option.some_or]

namespace Collection.Usable

variable {c : Collection}

theorem valid (h : c.Usable) (ht : t ∈ c.list purpose) : t.isValidFor purpose = true := by
  rcases List.mem_append.1 ht with hbuiltin | hown
  · exact ((builtins_spec purpose).2 t hbuiltin).1
  · exact ((h purpose).own t hown).valid

theorem isBuiltin_iff (h : c.Usable) (ht : t ∈ c.list purpose) :
    t.isBuiltin = true ↔ t ∈ builtins purpose := by
  refine ⟨fun hmark => ?_, fun hbuiltin => ((builtins_spec purpose).2 t hbuiltin).2⟩
  rcases List.mem_append.1 ht with hbuiltin | hown
  · exact hbuiltin
  · simp [((h purpose).own t hown).unmarked] at hmark

theorem nodup_keys (h : c.Usable) (purpose : Purpose) :
    ((c.list purpose).map (·.key)).Nodup := by
  rw [list, List.map_append]
  refine List.nodup_append.2 ⟨(builtins_spec purpose).1, (h purpose).sorted.nodup_keys, ?_⟩
  · intro key hbuiltin key' hown
    obtain ⟨t, ht, rfl⟩ := List.mem_map.1 hbuiltin
    obtain ⟨t', ht', rfl⟩ := List.mem_map.1 hown
    exact ((h purpose).own t' ht').key_ne ht

/-- The template of a key is the one in the list, or there is none. -/
theorem get?_eq_some_iff (h : c.Usable) :
    c.get? purpose key = some t ↔ t ∈ c.list purpose ∧ t.key = key := by
  rw [get?, Shelf.get?, ← List.find?_append]
  exact find?_key_eq_some_iff (h.nodup_keys purpose)

theorem require_eq_ok_iff (h : c.Usable) :
    c.require purpose key = .ok t ↔ t ∈ c.list purpose ∧ t.key = key := by
  rw [← h.get?_eq_some_iff, require]
  cases c.get? purpose key <;> simp

end Collection.Usable

/-! ## Histories -/

/-- A collection in memory, and the files around it. -/
structure Shop where
  collection : Collection
  files : FileTree

namespace Shop

/-- What can happen to a collection: edits, saves that may fail, and loading it again from files
that anybody may have changed. -/
inductive Happening where
  | edit (e : Edit)
  | save
  | reload
  | elsewhere (files : FileTree)

/-- A refused edit changes nothing; the collection in memory does not notice a save. -/
def after (s : Shop) : Happening → Shop
  | .edit e =>
    match e.apply s.collection with
    | .ok c => { s with collection := c }
    | .error _ => s
  | .save => { s with files := (s.collection.save s.files).2 }
  | .reload => { s with collection := .load s.collection.path s.files }
  | .elsewhere files => { s with files }

/-- The collection of a file before anything has happened. -/
def opened (path : Path) (files : FileTree) : Shop :=
  ⟨.load path files, files⟩

/-- The collection of a file after a history. -/
def afterAll (path : Path) (files : FileTree) (history : List Happening) : Shop :=
  history.foldl after (opened path files)

theorem usable_after {s : Shop} (h : s.collection.Usable) (what : Happening) :
    (s.after what).collection.Usable := by
  cases what with
  | edit e =>
    simp only [after]
    split
    · next c happly => exact Edit.usable happly h
    · exact h
  | save => exact h
  | reload => exact Collection.usable_load _ _
  | elsewhere files => exact h

theorem path_after (s : Shop) (what : Happening) :
    (s.after what).collection.path = s.collection.path := by
  cases what with
  | edit e =>
    simp only [after]
    split
    · next c happly => exact Edit.path_apply happly
    · rfl
  | save => rfl
  | reload => exact Collection.path_load _ _
  | elsewhere files => rfl

/-- After any history the collection is one that can be used, of the same file. -/
theorem afterAll_spec (path : Path) (files : FileTree) (history : List Happening) :
    (afterAll path files history).collection.Usable ∧
      (afterAll path files history).collection.path = path := by
  refine List.foldlRecOn (motive := fun s : Shop => s.collection.Usable ∧ s.collection.path = path)
    history after ⟨Collection.usable_load path files, Collection.path_load path files⟩
    fun s h what _ => ⟨usable_after h.1 what, ?_⟩
  rw [path_after, h.2]

end Shop

/-- Whatever the file held, and whatever was edited, saved and loaded since: the list of a purpose is
the builtin templates followed by others in strictly increasing order of keys, all of them pass the
check of the purpose, no two have one key, and only the builtin ones are marked as such.  A template
is found by its key if and only if it is in the list.  An edit of one purpose leaves the list of the
other as it is. -/
theorem served_templates (path : Path) (files : FileTree) (history : List Shop.Happening)
    (purpose : Purpose) :
    let c := (Shop.afterAll path files history).collection
    (∃ own : List Template, c.list purpose = builtins purpose ++ own ∧
      own.Pairwise (fun t t' => t.key < t'.key)) ∧
    (∀ t ∈ c.list purpose, t.validate purpose = .ok ()) ∧
    ((c.list purpose).map (·.key)).Nodup ∧
    (∀ t ∈ c.list purpose, t.isBuiltin = true ↔ t ∈ builtins purpose) ∧
    (∀ key t, c.get? purpose key = some t ↔ t ∈ c.list purpose ∧ t.key = key) ∧
    (∀ key t, c.require purpose key = .ok t ↔ t ∈ c.list purpose ∧ t.key = key) ∧
    (∀ (e : Edit) (c' : Collection), e.apply c = .ok c' → e.concerns ≠ purpose →
      c'.list purpose = c.list purpose) := by
  intro c
  have h : c.Usable := (Shop.afterAll_spec path files history).1
  refine ⟨⟨c.shelf purpose, rfl, (h purpose).sorted⟩, fun t ht => ?_, h.nodup_keys purpose,
    fun t ht => h.isBuiltin_iff ht, fun key t => h.get?_eq_some_iff,
    fun key t => h.require_eq_ok_iff, fun e c' happly hother => ?_⟩
  · exact Template.validate_eq_ok_iff.2 (h.valid ht)
  · obtain ⟨shelf, rfl, -⟩ := Edit.apply_cases happly
    rw [Collection.list, Collection.list, Collection.shelf_withShelf_of_ne hother.symm]

end PhotoIntake.Naming
