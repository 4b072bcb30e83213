import PhotoIntake.Proofs.FileTree.Actions

/-!
# Moving an entry with all below it

What is moved stands at the new place as it stood at the old one, down to everything below it.

* `Movable`: the new place is not inside the entry, and nothing is below it.
* `Movable.get?_relocate`: what stands where after the move.
* `Movable.wellFormed`: the tree stays well formed if its working folder is not moved.
-/

namespace PhotoIntake.FileTree

variable {t : FileTree} {k l origin goal : Location}

/-- Nothing is listed below a location exactly if nothing stands there. -/
theorem isEmpty_below_iff (t : FileTree) (goal : Location) :
    (t.below goal).isEmpty = true ↔ ∀ k, goal <+: k → goal ≠ k → t.get? k = none := by
  rw [List.isEmpty_iff, below, List.filter_eq_nil_iff]
  constructor
  · intro hnone k hpre hne
    by_contra hsome
    obtain ⟨e, he⟩ := Option.ne_none_iff_exists'.1 hsome
    have hnil : k ≠ [] := by
      rintro rfl
      exact hne (List.prefix_nil.1 hpre)
    exact hnone (k, e) (mem_entries_of_get? hnil he) (by simpa using ⟨hpre, hne.symm⟩)
  · rintro hnone ⟨k, e⟩ hmem hbelow
    obtain ⟨hpre, hne⟩ : goal <+: k ∧ k ≠ goal := by simpa using hbelow
    have hthere := isSome_get?_of_mem_entries hmem
    rw [hnone k hpre (Ne.symm hne)] at hthere
    simp at hthere

/-- What is above a place with a folder around it is a folder. -/
theorem WellFormed.folder_above_of_parent (htree : t.WellFormed)
    (hparent : t.get? k.dropLast = some .folder) (hpre : l <+: k) (hne : l ≠ k) :
    t.get? l = some .folder := by
  obtain ⟨rest, rfl⟩ := hpre
  have hrest : rest ≠ [] := by
    rintro rfl
    simp at hne
  rw [List.dropLast_append_of_ne_nil hrest] at hparent
  by_cases hlast : rest.dropLast = []
  · rwa [hlast, List.append_nil] at hparent
  · exact htree.folder_above (by rw [hparent]; rfl) (List.prefix_append _ _) (by simpa using hlast)

/-- Nothing is below what is no folder. -/
theorem WellFormed.vacant_below (htree : t.WellFormed) (hgoal : t.get? goal ≠ some .folder)
    (k : Location) (hpre : goal <+: k) (hne : goal ≠ k) : t.get? k = none := by
  by_contra hsome
  exact hgoal (htree.folder_above (Option.isSome_iff_ne_none.2 hsome) hpre hne)

theorem lookup_moved {entries : List (Location × Entry)} (h : ∀ entry ∈ entries, ¬ goal <+: entry.1)
    (rest : Location) :
    (entries.map fun (k, e) =>
        if origin.isPrefixOf k then (goal ++ k.drop origin.length, e) else (k, e)).lookup
          (goal ++ rest) = entries.lookup (origin ++ rest) := by
  induction entries with
  | nil => rfl
  | cons entry others ih =>
    obtain ⟨k, e⟩ := entry
    have hk : ¬ goal <+: k := h (k, e) List.mem_cons_self
    rw [List.map_cons, lookup_cons_eq_if, lookup_cons_eq_if,
      ih fun entry hentry => h entry (List.mem_cons_of_mem _ hentry)]
    by_cases hpre : origin <+: k
    · obtain ⟨below, rfl⟩ := hpre
      simp
    · have hgoal : goal ++ rest ≠ k := by
        rintro rfl
        exact hk (List.prefix_append _ _)
      have horigin : origin ++ rest ≠ k := by
        rintro rfl
        exact hpre (List.prefix_append _ _)
      simp [hpre, hgoal, horigin]

/-- What is there can be moved to another place that is not inside it and has nothing below. -/
structure Movable (t : FileTree) (origin goal : Location) : Prop where
  there : (t.get? origin).isSome
  differ : origin ≠ goal
  outside : ¬ origin <+: goal
  vacant : ∀ k, goal <+: k → goal ≠ k → t.get? k = none

namespace Movable

theorem not_prefix (h : Movable t origin goal) : ¬ goal <+: origin := by
  intro hpre
  have hthere := h.there
  rw [h.vacant origin hpre h.differ.symm] at hthere
  simp at hthere

/-- After the move everything stands at the new place as it stood at the old one, and nothing at the
old one. -/
theorem get?_relocate (h : Movable t origin goal) (k : Location) :
    (t.relocate origin goal).get? k =
      if goal <+: k then t.get? (origin ++ k.drop goal.length)
      else if origin <+: k then none else t.get? k := by
  have horigin : origin ≠ [] := by
    rintro rfl
    exact h.outside List.nil_prefix
  split_ifs with hgoal hold
  · obtain ⟨rest, rfl⟩ := hgoal
    have hgoal : goal ≠ [] := by
      rintro rfl
      exact h.not_prefix List.nil_prefix
    have hlisted : ∀ entry ∈ (t.erase goal).entries, ¬ goal <+: entry.1 := by
      rintro ⟨k, e⟩ hmem hpre
      obtain ⟨hmem, hne⟩ := List.mem_filter.1 hmem
      have hthere := isSome_get?_of_mem_entries hmem
      rw [h.vacant k hpre (by simpa using Ne.symm (bne_iff_ne.1 hne))] at hthere
      simp at hthere
    have hne : origin ++ rest ≠ goal := by
      rintro rfl
      exact h.outside (List.prefix_append _ _)
    rw [get?_of_ne_nil (by simp [hgoal]), List.drop_left, ← get?_erase_of_ne hne,
      get?_of_ne_nil (by simp [horigin])]
    exact lookup_moved hlisted rest
  · rw [get?_relocate_outside horigin hgoal, if_pos hold]
  · rw [get?_relocate_outside horigin hgoal, if_neg hold]

/-- The tree stays well formed if its working folder stays. -/
theorem wellFormed (h : Movable t origin goal) (htree : t.WellFormed)
    (hparent : t.get? goal.dropLast = some .folder) (hold : ¬ origin <+: t.working)
    (hnew : ¬ goal <+: t.working) : (t.relocate origin goal).WellFormed := by
  refine ⟨fun k hk => ?_, ?_⟩
  · rw [h.get?_relocate] at hk ⊢
    by_cases hgoal : goal <+: k
    · obtain ⟨rest, rfl⟩ := hgoal
      by_cases hrest : rest = []
      · subst hrest
        have hnil : goal ≠ [] := by
          rintro rfl
          exact h.not_prefix List.nil_prefix
        have hup : ¬ goal <+: goal.dropLast := fun hpre => by
          have hlength := hpre.length_le
          rw [List.length_dropLast] at hlength
          have hpos := List.length_pos_iff.2 hnil
          omega
        have hout : ¬ origin <+: goal.dropLast :=
          fun hpre => h.outside (hpre.trans (List.dropLast_prefix goal))
        rw [List.append_nil, if_neg hup, if_neg hout, hparent]
      · rw [if_pos (List.prefix_append _ _), List.drop_left] at hk
        have hfolder := htree.parent _ hk
        rw [List.dropLast_append_of_ne_nil hrest] at hfolder ⊢
        rw [if_pos (List.prefix_append _ _), List.drop_left, hfolder]
    · rw [if_neg hgoal] at hk
      by_cases hfrom : origin <+: k
      · simp [hfrom] at hk
      · rw [if_neg hfrom] at hk
        have hgoal' : ¬ goal <+: k.dropLast :=
          fun hpre => hgoal (hpre.trans (List.dropLast_prefix k))
        have hfrom' : ¬ origin <+: k.dropLast :=
          fun hpre => hfrom (hpre.trans (List.dropLast_prefix k))
        rw [if_neg hgoal', if_neg hfrom']
        exact htree.parent k hk
  · show (t.relocate origin goal).get? t.working = _
    rw [h.get?_relocate, if_neg hnew, if_neg hold]
    exact htree.working

end Movable

end PhotoIntake.FileTree
