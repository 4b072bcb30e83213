import PhotoIntake.FileTree.Action
import Mathlib.Data.List.Induction
import Mathlib.Tactic.Common

/-!
# The entries of a file tree

A tree is a list of entries, but everything reads it through `get?`.  This module says what the
changes of a tree do to `get?`, so that no later proof looks into the list.

* `get?_set_self`, `get?_erase_self` and their `_of_ne` partners: one location changes.
* `relocate` is the tree that moving an entry leaves.  `get?_relocate_self` says what stands at the
  new location, `get?_relocate_outside` what stands outside of it.
* `LinkFree`: no entry is a link.  `WellFormed`: what stands around an entry is a folder.
-/

namespace PhotoIntake.FileTree

variable {t : FileTree} {l l' : Location} {e : Entry}

@[simp] theorem get?_root (t : FileTree) : t.get? [] = some .folder := rfl

theorem get?_of_ne_nil (h : l ≠ []) : t.get? l = t.entries.lookup l := by
  simp [get?, h]

theorem mem_entries_of_get? (hl : l ≠ []) (h : t.get? l = some e) : (l, e) ∈ t.entries := by
  rw [get?_of_ne_nil hl] at h
  obtain ⟨before, after, hentries, -⟩ := List.lookup_eq_some_iff.1 h
  simp [hentries]

theorem isSome_get?_of_mem_entries (h : (l, e) ∈ t.entries) : (t.get? l).isSome := by
  by_cases hl : l = []
  · simp [hl]
  · rw [get?_of_ne_nil hl, Option.isSome_iff_ne_none]
    intro hnone
    exact absurd (List.lookup_eq_none_iff.1 hnone _ h) (by simp)

/-! ## One location changes -/

theorem lookup_cons_eq_if (entry : Location × Entry) (rest : List (Location × Entry))
    (l : Location) :
    (entry :: rest).lookup l = if l = entry.1 then some entry.2 else rest.lookup l := by
  obtain ⟨k, e⟩ := entry
  by_cases h : l = k
  · subst h
    simp
  · have hbeq : (l == k) = false := by simpa using h
    simp [List.lookup_cons, h, hbeq]

theorem lookup_filter_ne {entries : List (Location × Entry)} (h : l' ≠ l) :
    (entries.filter (·.1 != l)).lookup l' = entries.lookup l' := by
  induction entries with
  | nil => rfl
  | cons entry rest ih =>
    obtain ⟨k, e⟩ := entry
    by_cases hk : k = l
    · subst hk
      simp [lookup_cons_eq_if, ih, h]
    · simp [hk, lookup_cons_eq_if, ih]

theorem lookup_filter_self (entries : List (Location × Entry)) (l : Location) :
    (entries.filter (·.1 != l)).lookup l = none := by
  rw [List.lookup_eq_none_iff]
  intro entry hentry
  have hne : entry.1 ≠ l := by simpa using (List.mem_filter.1 hentry).2
  simpa using fun h => hne h.symm

theorem get?_set_self (h : l ≠ []) : (t.set l e).get? l = some e := by
  rw [get?_of_ne_nil h]
  simp [set, List.lookup_append, lookup_filter_self]

theorem get?_set_of_ne (h : l' ≠ l) : (t.set l e).get? l' = t.get? l' := by
  by_cases hnil : l' = []
  · subst hnil
    simp
  · rw [get?_of_ne_nil hnil, get?_of_ne_nil hnil]
    simp [set, List.lookup_append, lookup_filter_ne h, lookup_cons_eq_if, h]

theorem get?_erase_self (h : l ≠ []) : (t.erase l).get? l = none := by
  rw [get?_of_ne_nil h]
  exact lookup_filter_self _ _

theorem get?_erase_of_ne (h : l' ≠ l) : (t.erase l).get? l' = t.get? l' := by
  by_cases hnil : l' = []
  · subst hnil
    simp
  · rw [get?_of_ne_nil hnil, get?_of_ne_nil hnil]
    exact lookup_filter_ne h

@[simp] theorem working_set (t : FileTree) (l : Location) (e : Entry) :
    (t.set l e).working = t.working := rfl

/-- Filling a file writes to its location and nowhere else. -/
theorem get?_fill_self (h : l ≠ []) (content : ByteArray) :
    ∃ written modified, (t.fill l content).1.get? l = some (.file written modified) := by
  unfold fill
  cases t.room with
  | none => exact ⟨_, _, get?_set_self h⟩
  | some room => exact ⟨_, _, get?_set_self (t := t) h⟩

theorem get?_fill_of_ne (h : l' ≠ l) (content : ByteArray) :
    (t.fill l content).1.get? l' = t.get? l' := by
  unfold fill
  cases t.room with
  | none => exact get?_set_of_ne h
  | some room => exact get?_set_of_ne (t := t) h

@[simp] theorem working_fill (t : FileTree) (l : Location) (content : ByteArray) :
    (t.fill l content).1.working = t.working := by
  unfold fill
  cases t.room <;> rfl

/-- A file that was filled to its end holds the bytes. -/
theorem get?_fill_complete (h : l ≠ []) {content : ByteArray}
    (hcomplete : (t.fill l content).2 = true) :
    ∃ modified, (t.fill l content).1.get? l = some (.file content modified) := by
  unfold fill at hcomplete ⊢
  cases hroom : t.room with
  | none => exact ⟨_, get?_set_self h⟩
  | some room =>
    simp only [hroom, decide_eq_true_eq] at hcomplete
    have hwritten : content.extract 0 (min room content.size) = content := by
      rw [Nat.min_eq_right hcomplete]
      simp
    refine ⟨t.clock, ?_⟩
    show (t.set l (.file (content.extract 0 (min room content.size)) t.clock)).get? l = _
    rw [hwritten]
    exact get?_set_self h

/-! ## Moving an entry -/

/-- The tree in which an entry and all below it stand at another location, in place of what was
there. -/
def relocate (t : FileTree) (source target : Location) : FileTree :=
  let t := t.erase target
  { t with entries := t.entries.map fun (l, e) =>
      if source.isPrefixOf l then (target ++ l.drop source.length, e) else (l, e) }

private theorem lookup_relocated {entries : List (Location × Entry)} {source target : Location}
    (h : ¬ target <+: l) :
    (entries.map fun (k, e) =>
        if source.isPrefixOf k then (target ++ k.drop source.length, e) else (k, e)).lookup l =
      if source <+: l then none else entries.lookup l := by
  induction entries with
  | nil => simp
  | cons entry rest ih =>
    obtain ⟨k, e⟩ := entry
    rw [List.map_cons, lookup_cons_eq_if, lookup_cons_eq_if, ih]
    by_cases hk : source <+: k
    · have hne : l ≠ target ++ k.drop source.length := by
        rintro rfl
        exact h (List.prefix_append _ _)
      have hkl : source <+: l ∨ l ≠ k := by
        by_cases hl : source <+: l
        · exact Or.inl hl
        · exact Or.inr fun heq => hl (heq ▸ hk)
      rcases hkl with hl | hl
      · simp [hk, hne, hl]
      · simp [hk, hne, hl]
    · by_cases hl : l = k
      · subst hl
        simp [hk]
      · simp [hk, hl]

/-- Outside of the new location, what was moved is gone and all else is as it was. -/
theorem get?_relocate_outside {source target : Location} (hsource : source ≠ [])
    (h : ¬ target <+: l) :
    (t.relocate source target).get? l = if source <+: l then none else t.get? l := by
  by_cases hnil : l = []
  · subst hnil
    simp [List.prefix_nil, hsource]
  · have hne : l ≠ target := by
      rintro rfl
      exact h (List.prefix_refl _)
    rw [get?_of_ne_nil hnil, get?_of_ne_nil hnil]
    have herase : (t.erase target).entries.lookup l = t.entries.lookup l := lookup_filter_ne hne
    rw [← herase]
    exact lookup_relocated h

private theorem lookup_relocated_self {entries : List (Location × Entry)}
    {source target : Location} (h : ∀ entry ∈ entries, entry.1 ≠ target) :
    (entries.map fun (k, e) =>
        if source.isPrefixOf k then (target ++ k.drop source.length, e) else (k, e)).lookup target =
      entries.lookup source := by
  induction entries with
  | nil => rfl
  | cons entry rest ih =>
    obtain ⟨k, e⟩ := entry
    have hk : k ≠ target := h (k, e) List.mem_cons_self
    rw [List.map_cons, lookup_cons_eq_if, lookup_cons_eq_if,
      ih fun entry hentry => h entry (List.mem_cons_of_mem _ hentry)]
    by_cases hsource : source <+: k
    · obtain ⟨below, rfl⟩ := hsource
      cases below with
      | nil => simp
      | cons s below => simp
    · have hne : source ≠ k := by
        rintro rfl
        exact hsource (List.prefix_refl _)
      simp [hsource, hk.symm, hne]

/-- At the new location stands what stood at the old one. -/
theorem get?_relocate_self {source target : Location} (hsource : source ≠ [])
    (htarget : target ≠ []) (hne : source ≠ target) :
    (t.relocate source target).get? target = t.get? source := by
  rw [get?_of_ne_nil hsource, get?_of_ne_nil htarget]
  have herase : (t.erase target).entries.lookup source = t.entries.lookup source :=
    lookup_filter_ne hne
  rw [← herase]
  refine lookup_relocated_self fun entry hentry => ?_
  simpa using (List.mem_filter.1 hentry).2

/-- Below the new location stands nothing, if nothing stood below either of the two. -/
theorem get?_relocate_below {source target : Location}
    (hsource : ∀ k, source <+: k → source ≠ k → t.get? k = none)
    (htarget : ∀ k, target <+: k → target ≠ k → t.get? k = none) (hpre : target <+: l)
    (hne : target ≠ l) : (t.relocate source target).get? l = none := by
  have hnil : l ≠ [] := by
    rintro rfl
    exact hne (List.prefix_nil.1 hpre)
  rw [get?_of_ne_nil hnil, List.lookup_eq_none_iff]
  intro entry hentry
  obtain ⟨⟨k, e⟩, hk, rfl⟩ := List.mem_map.1 hentry
  have hthere : (t.get? k).isSome := isSome_get?_of_mem_entries (List.mem_filter.1 hk).1
  rw [bne_iff_ne]
  by_cases hmoved : source <+: k
  · obtain ⟨rest, rfl⟩ := hmoved
    rintro rfl
    have hrest : rest ≠ [] := by
      rintro rfl
      simp at hne
    rw [hsource _ (List.prefix_append _ _) (by simpa using hrest)] at hthere
    simp at hthere
  · rintro rfl
    simp only [List.isPrefixOf_iff_prefix, hmoved, if_false] at hpre hne
    rw [htarget _ hpre hne] at hthere
    simp at hthere

/-! ## Trees without links, and trees whose entries stand in folders -/

/-- No entry is a link. -/
def LinkFree (t : FileTree) : Prop :=
  ∀ l target, t.get? l ≠ some (.link target)

/-- Every entry stands in a folder, and the working folder is there. -/
structure WellFormed (t : FileTree) : Prop where
  parent : ∀ l, (t.get? l).isSome → t.get? l.dropLast = some .folder
  working : t.get? t.working = some .folder

/-- A tree whose listed entries are no links has none. -/
theorem linkFree_of_entries (h : ∀ entry ∈ t.entries, ∀ target, entry.2 ≠ .link target) :
    t.LinkFree := by
  intro l target hget
  by_cases hl : l = []
  · subst hl
    simp at hget
  · exact h _ (mem_entries_of_get? hl hget) target rfl

/-- A tree is well formed when its listed entries stand in folders. -/
theorem wellFormed_of_entries
    (hentries : ∀ entry ∈ t.entries, t.get? entry.1.dropLast = some .folder)
    (hworking : t.get? t.working = some .folder) : t.WellFormed := by
  refine ⟨fun l hl => ?_, hworking⟩
  obtain ⟨e, he⟩ := Option.isSome_iff_exists.1 hl
  by_cases hnil : l = []
  · subst hnil
    rfl
  · exact hentries _ (mem_entries_of_get? hnil he)

/-- What stands above an entry is a folder. -/
theorem WellFormed.folder_above (h : t.WellFormed) (hl : (t.get? l).isSome) (hpre : l' <+: l)
    (hne : l' ≠ l) : t.get? l' = some .folder := by
  obtain ⟨below, rfl⟩ := hpre
  induction below using List.reverseRecOn with
  | nil => simp at hne
  | append_singleton below s ih =>
    have hparent : t.get? (l' ++ below) = some .folder := by
      simpa [← List.append_assoc] using h.parent _ hl
    by_cases hbelow : below = []
    · subst hbelow
      simpa using hparent
    · exact ih (by simp [hparent]) (by simpa using hbelow)

/-- Nothing stands below a file. -/
theorem WellFormed.get?_below (h : t.WellFormed) {content : ByteArray} {modified : Int}
    (hfile : t.get? l = some (.file content modified)) (hpre : l <+: l') (hne : l ≠ l') :
    t.get? l' = none := by
  by_contra hsome
  have hfolder := h.folder_above (Option.isSome_iff_ne_none.2 hsome) hpre hne
  rw [hfile] at hfolder
  simp at hfolder

end PhotoIntake.FileTree
