import PhotoIntake.Proofs.FileTree.Bypassing
import PhotoIntake.Proofs.FileTree.Relocation

/-!
# Actions that a file makes no difference to

An action whose paths do not lead over a location does the same whatever file is there, and leaves
it alone.  This is shown action by action; `Ignores.bind` and `Ignores.tryCatch` put them together.

* `Ignores`: the action does the same in all trees that are the same but for the file.
* `Bypasses`: a path leads neither over the location nor to a folder that must stay where it is.
* `ignores_createFolders`, `ignores_copyFile`, `ignores_rename` and `ignores_removeFile`.
-/

namespace PhotoIntake

namespace FileAction

open FileTree
open PhotoIntake.Path (Component)

variable {α β : Type} {t t' : FileTree} {k l : Location}

/-- The action has the same result in every tree that is the same but for a file at the location,
leaves such trees behind, and changes nothing at the location. -/
def Ignores (l : Location) (action : FileAction α) (t : FileTree) : Prop :=
  ∀ t', SameBut l t t' → ∃ u', action.runOn t' = ((action.runOn t).1, u') ∧
    SameBut l (action.treeAfter t) u' ∧ (action.treeAfter t).get? l = t.get? l ∧
    u'.get? l = t'.get? l

namespace Ignores

/-- An action that changes nothing and has one result. -/
theorem of_runOn {action : FileAction α} {r : Except FileError α}
    (h : ∀ t', SameBut l t t' → action.runOn t' = (r, t')) (ht : action.runOn t = (r, t)) :
    Ignores l action t := by
  intro t' hsame
  rw [treeAfter, ht]
  exact ⟨t', h t' hsame, hsame, rfl, rfl⟩

theorem pure (a : α) : Ignores l (Pure.pure a : FileAction α) t :=
  of_runOn (fun _ _ => rfl) rfl

theorem throw (e : FileError) : Ignores l (MonadExcept.throw e : FileAction α) t :=
  of_runOn (fun _ _ => rfl) rfl

/-- A look at what is the same in both trees. -/
theorem look {f : FileTree → Except FileError α} (h : ∀ t', SameBut l t t' → f t' = f t) :
    Ignores l (FileAction.look f) t := by
  refine of_runOn (fun t' hsame => ?_) (runOn_look f t)
  rw [runOn_look, h t' hsame]

/-- A change that keeps the trees the same but for the file. -/
theorem modify {f : FileTree → FileTree}
    (h : ∀ t', SameBut l t t' → SameBut l (f t) (f t') ∧ (f t).get? l = t.get? l ∧
      (f t').get? l = t'.get? l) : Ignores l (modify f : FileAction PUnit) t := by
  intro t' hsame
  obtain ⟨hafter, hkept, hkept'⟩ := h t' hsame
  exact ⟨f t', rfl, hafter, hkept, hkept'⟩

theorem bind {action : FileAction α} {f : α → FileAction β} (h : Ignores l action t)
    (hf : ∀ a u, action.runOn t = (.ok a, u) → Ignores l (f a) u) : Ignores l (action >>= f) t := by
  intro t' hsame
  obtain ⟨u', hrun', hu, hkept, hkept'⟩ := h t' hsame
  rw [treeAfter] at hu hkept
  rw [treeAfter, runOn_bind, runOn_bind, hrun']
  rcases hrun : action.runOn t with ⟨e | a, u⟩
  · rw [hrun] at hu hkept
    exact ⟨u', rfl, hu, hkept, hkept'⟩
  · rw [hrun] at hu hkept
    obtain ⟨v', hnext', hv, hmore, hmore'⟩ := hf a u hrun u' hu
    exact ⟨v', hnext', hv, hmore.trans hkept, hmore'.trans hkept'⟩

theorem tryCatch {action : FileAction α} {handler : FileError → FileAction α}
    (h : Ignores l action t)
    (hh : ∀ e u, action.runOn t = (.error e, u) → Ignores l (handler e) u) :
    Ignores l (MonadExcept.tryCatch action handler) t := by
  intro t' hsame
  obtain ⟨u', hrun', hu, hkept, hkept'⟩ := h t' hsame
  rw [treeAfter] at hu hkept
  rw [treeAfter, runOn_tryCatch, runOn_tryCatch, hrun']
  rcases hrun : action.runOn t with ⟨e | a, u⟩
  · rw [hrun] at hu hkept
    obtain ⟨v', hnext', hv, hmore, hmore'⟩ := hh e u hrun u' hu
    exact ⟨v', hnext', hv, hmore.trans hkept, hmore'.trans hkept'⟩
  · rw [hrun] at hu hkept
    exact ⟨u', rfl, hu, hkept, hkept'⟩

/-- Whoever shows this may have two such trees at hand. -/
theorem of_sameBut {action : FileAction α} (h : ∀ t', SameBut l t t' → Ignores l action t) :
    Ignores l action t :=
  fun t' hsame => h t' hsame t' hsame

/-- Both ways of a choice that is the same for both trees. -/
theorem ite {c : Prop} [Decidable c] {first second : FileAction α}
    (hfirst : c → Ignores l first t) (hsecond : ¬ c → Ignores l second t) :
    Ignores l (if c then first else second) t := by
  by_cases h : c
  · rw [if_pos h]
    exact hfirst h
  · rw [if_neg h]
    exact hsecond h

theorem throw_bind (e : FileError) (f : α → FileAction β) :
    Ignores l (MonadExcept.throw e >>= f) t :=
  of_runOn (fun _ _ => rfl) rfl

/-- What comes after a look at what is the same in both trees. -/
theorem look_bind {f : FileTree → Except FileError α} {g : α → FileAction β}
    (h : ∀ t', SameBut l t t' → f t' = f t) (hg : ∀ a, f t = .ok a → Ignores l (g a) t) :
    Ignores l (FileAction.look f >>= g) t := by
  refine .bind (.look h) fun a u hrun => ?_
  rw [runOn_look] at hrun
  obtain ⟨ha, rfl⟩ := Prod.mk.inj hrun
  exact hg a ha

/-- What comes after a look at the tree that makes no difference. -/
theorem get_bind {g : FileTree → FileAction α} (h : ∀ t', SameBut l t t' → g t' = g t)
    (hg : Ignores l (g t) t) : Ignores l (get >>= g) t := by
  intro t' hsame
  have hrun' : (get >>= g).runOn t' = (g t).runOn t' := by
    rw [runOn_bind, runOn_get]
    simp only [h t' hsame]
  rw [hrun']
  exact hg t' hsame

end Ignores

/-! ## Folders -/

theorem ignores_createFolder {p : Path} (hover : ¬ t.Passes l p) :
    Ignores l (createFolder p) t := by
  refine .look_bind (fun t' h => h.locate_eq hover false) fun place hplace => ?_
  obtain ⟨k, entry⟩ := place
  cases entry with
  | some e => exact .throw .occupied
  | none =>
    refine .modify fun t' h => ?_
    have hk : k ≠ l := h.location_ne hover hplace
    have htree : (t.set k .folder).WellFormed :=
      h.wellFormed.set (parent_of_placeOf h.wellFormed hplace) fun _ => rfl
    exact ⟨h.set htree hk, get?_set_of_ne hk.symm, get?_set_of_ne hk.symm⟩

/-- A folder that could not be created has changed nothing. -/
theorem eq_of_createFolder_error {p : Path} {e : FileError}
    (h : (createFolder p).runOn t = (.error e, t')) : t' = t := by
  rw [createFolder, runOn_bind, runOn_look] at h
  cases hplace : t.locate false p with
  | error e => exact (Prod.mk.inj (by simpa only [hplace] using h)).2.symm
  | ok place =>
    obtain ⟨k, _ | entry⟩ := place
    · simp [hplace] at h
    · simp only [hplace, runOn_throw] at h
      exact (Prod.mk.inj h).2.symm

theorem ignores_ensureFolder {p : Path} (hover : ¬ t.Passes l p) :
    Ignores l (ensureFolder p) t := by
  refine .tryCatch (ignores_createFolder hover) fun e u hfailed => ?_
  obtain rfl := eq_of_createFolder_error hfailed
  refine .get_bind (fun t' h => by simp only [h.isFolder_eq hover]) ?_
  split
  · exact .pure _
  · exact .throw e

/-- A way leads over as much after folders were added. -/
theorem passes_of_added {P : Location → Prop} {p q : Path} (hadded : FoldersAdded P t t')
    (hq : p.components <+: q.components) (h : t.Passes l p) : t'.Passes l q := by
  obtain ⟨ds, hds⟩ := hq
  have hsame {k : Location} {e : Entry} (hget : t.get? k = some e) : t'.get? k = some e :=
    (hadded.get?_of_isSome (by rw [hget]; rfl)).trans hget
  unfold Passes at h ⊢
  rw [hadded.working, ← hds]
  exact (h.mono (fun _ => hsame) fun _ _ => hsame).append ds

/-- Creating nested folders ignores the file if a path through all of them does not lead over its
location in the end. -/
theorem ignores_ensureFoldersUp {cs : List Component} (hcs : Path.Canonical cs.reverse)
    {last : FileTree} {p : Path} (hp : cs.reverse <+: p.components)
    (hlast : FoldersAdded (fun _ => True) ((ensureFoldersUp cs).treeAfter t) last)
    (hover : ¬ last.Passes l p) : Ignores l (ensureFoldersUp cs) t := by
  induction cs generalizing t with
  | nil => exact .pure ()
  | cons c outer ih =>
    let q := Path.ofComponents (c :: outer).reverse
    have hq : q.components = (c :: outer).reverse := Path.components_ofComponents hcs
    have hensure {u : FileTree} (hu : FoldersAdded (fun _ => True) u last) :
        Ignores l (ensureFolder q) u :=
      ignores_ensureFolder fun h => hover (passes_of_added hu (hq ▸ hp) h)
    have hadds {u : FileTree} : FoldersAdded (fun _ => True) u ((ensureFolder q).treeAfter u) :=
      ensureFolder_adds fun _ _ => trivial
    have hall : FoldersAdded (fun _ => True) t ((ensureFoldersUp (c :: outer)).treeAfter t) :=
      ensureFoldersUp_adds (Q := fun _ => True) (fun _ _ _ _ => trivial)
        (fun _ _ _ _ _ _ => trivial) trivial
    refine .tryCatch (hensure (hall.trans hlast)) fun e t₁ hfailed => ?_
    cases e with
    | missing =>
      have hwhole : (ensureFoldersUp (c :: outer)).treeAfter t =
          FileAction.treeAfter (do ensureFoldersUp outer; ensureFolder q) t₁ := by
        rw [treeAfter, ensureFoldersUp, runOn_tryCatch, hfailed, treeAfter]
      rw [hwhole, treeAfter, runOn_bind] at hlast
      have hafter : FoldersAdded (fun _ => True) ((ensureFoldersUp outer).treeAfter t₁) last := by
        rw [treeAfter]
        rcases hrun : (ensureFoldersUp outer).runOn t₁ with ⟨e | _, t₂⟩
        · rwa [hrun] at hlast
        · rw [hrun] at hlast
          exact hadds.trans hlast
      rw [List.reverse_cons] at hcs hp
      have hbefore : outer.reverse <+: p.components := (List.prefix_append _ [c]).trans hp
      refine .bind (ih (Path.Canonical.of_append hcs) hbefore hafter) fun _ t₂ hrun => ?_
      rw [treeAfter_of_runOn hrun] at hafter
      exact hensure hafter
    | _ => exact .throw _

theorem ignores_createFolders {p q : Path} (hq : p.components <+: q.components)
    (hover : ¬ ((createFolders p).treeAfter t).Passes l q) : Ignores l (createFolders p) t := by
  refine ignores_ensureFoldersUp ?_ ?_ (FoldersAdded.refl _ _) hover
  · rw [List.reverse_reverse]
    exact Path.canonical_components p
  · rwa [List.reverse_reverse]

/-! ## Copying -/

/-- Putting a file where a path leads keeps a tree well formed, if there is no folder. -/
theorem wellFormed_set_of_placeOf {b : Bool} {p : Path} {entry : Option Entry} {e : Entry}
    (htree : t.WellFormed) (hplace : t.placeOf b p = .ok ⟨k, entry⟩)
    (hentry : entry ≠ some .folder) : (t.set k e).WellFormed :=
  htree.set (parent_of_placeOf htree hplace) fun hfolder =>
    absurd ((entry_of_placeOf hplace).trans hfolder) hentry

theorem ignores_openEmpty {p : Path} (hover : ¬ t.Passes l p) : Ignores l (openEmpty p) t := by
  refine .look_bind (fun t' h => h.locate_eq hover true) fun place hplace => ?_
  have hopened (hentry : place.entry ≠ some .folder) :
      Ignores l (do
        modify fun t => t.set place.location (.file ByteArray.empty t.clock)
        pure (some place.location)) t := by
    refine .bind (.modify fun t' h => ?_) fun _ _ _ => .pure _
    have hk : place.location ≠ l := h.location_ne hover hplace
    rw [h.clock]
    exact ⟨h.set (wellFormed_set_of_placeOf h.wellFormed hplace hentry) hk,
      get?_set_of_ne hk.symm, get?_set_of_ne hk.symm⟩
  cases hdemands : p.demandsFolder with
  | true =>
    simp only [if_true]
    split <;> exact .throw_bind _ _
  | false =>
    simp only [Bool.false_eq_true, if_false]
    split
    · exact .throw _
    · exact .pure none
    · next hfolder _ => exact hopened hfolder

theorem ignores_writeAll {content : ByteArray} (opened : Option Location)
    (hopened : ∀ k ∈ opened, k ≠ l ∧ ∃ old modified, t.get? k = some (.file old modified)) :
    Ignores l (writeAll opened content) t := by
  cases opened with
  | none =>
    unfold writeAll
    cases content.isEmpty with
    | true => exact .pure ()
    | false => exact .throw _
  | some k =>
    obtain ⟨hk, old, modified, hfile⟩ := hopened k rfl
    intro t' h
    have hfill (u : FileTree) (hroom : u.room = none) :
        (writeAll (some k) content).runOn u = (.ok (), u.set k (.file content u.clock)) := by
      rw [runOn_writeAll_some, fill, hroom]
      rfl
    have htree : (t.set k (.file content t.clock)).WellFormed :=
      h.wellFormed.set (h.wellFormed.parent k (by simp [hfile])) fun hfolder => by
        simp [hfile] at hfolder
    rw [treeAfter, hfill t h.room, hfill t' h.room', h.clock]
    exact ⟨_, rfl, h.set htree hk, get?_set_of_ne hk.symm, get?_set_of_ne hk.symm⟩

/-- What was opened is where the path leads, and there is a file. -/
theorem file_of_opened {p : Path} {opened : Option Location}
    (h : (openEmpty p).runOn t = (.ok opened, t')) (hk : k ∈ opened) :
    (∃ entry, t.locate true p = .ok ⟨k, entry⟩) ∧
      ∃ content modified, t'.get? k = some (.file content modified) := by
  rcases openEmpty_cases p t with ⟨e, hopen⟩ | ⟨k', -, hopen⟩ |
    ⟨k', entry, hplace, -, hentry, hopen⟩
  all_goals
    rw [hopen] at h
    obtain ⟨hopened, rfl⟩ := Prod.mk.inj h
  · simp at hopened
  · obtain rfl := Except.ok.inj hopened
    simp at hk
  · obtain rfl := Except.ok.inj hopened
    obtain rfl := Option.some.inj hk
    exact ⟨⟨entry, hplace⟩, _, _, get?_set_self (ne_nil_of_opened hplace hentry)⟩

/-- Copying ignores the file if neither of the two paths leads over its location. -/
theorem ignores_copyFile {source target : Path} (hsource : ¬ t.Passes l source)
    (htarget : ¬ t.Passes l target) : Ignores l (copyFile source target) t := by
  refine .of_sameBut fun t' h => ?_
  refine .look_bind (fun t' h => by simp only [h.entry?_eq hsource]) fun k hk => ?_
  have hkl : k ≠ l := by
    split at hk
    · next k' content modified hentry =>
      obtain rfl := Except.ok.inj hk
      exact h.location_ne hsource (entry?_eq_some_iff.1 hentry).1
    · simp at hk
    · simp at hk
  refine .bind (ignores_openEmpty htarget) fun opened u hopen => ?_
  refine .look_bind (fun u' h => ?_) fun content _ => ?_
  · unfold contentAt
    rw [h.get?_of_ne k hkl]
  · refine ignores_writeAll opened fun k' hk' => ?_
    obtain ⟨⟨entry, hplace⟩, hfile⟩ := file_of_opened hopen hk'
    exact ⟨h.location_ne htarget hplace, hfile⟩

/-! ## Removing -/

/-- Erasing what is no folder keeps a tree well formed. -/
theorem wellFormed_erase (htree : t.WellFormed) (hk : t.get? k ≠ some .folder) :
    (t.erase k).WellFormed := by
  have hfolder {j : Location} (hj : t.get? j = some .folder) :
      (t.erase k).get? j = some .folder := by
    have hjk : j ≠ k := by
      rintro rfl
      exact hk hj
    rw [get?_erase_of_ne hjk, hj]
  refine ⟨fun j hj => hfolder ?_, hfolder htree.working⟩
  have hjk : j ≠ k := by
    rintro rfl
    by_cases hnil : j = []
    · subst hnil
      exact hk (get?_root t)
    · simp [get?_erase_self hnil] at hj
  rw [get?_erase_of_ne hjk] at hj
  exact htree.parent j hj

/-- Removing ignores the file if the path does not lead over its location. -/
theorem ignores_removeFile {p : Path} (hover : ¬ t.Passes l p) : Ignores l (removeFile p) t := by
  refine .look_bind (fun t' h => h.locate_eq hover false) fun place hplace => ?_
  have herased (hfolder : place.entry ≠ some .folder) :
      Ignores l (modify fun t => t.erase place.location) t := by
    refine .modify fun t' h => ?_
    have hk : place.location ≠ l := h.location_ne hover hplace
    have htree : (t.erase place.location).WellFormed :=
      wellFormed_erase h.wellFormed (entry_of_placeOf hplace ▸ hfolder)
    exact ⟨h.erase htree hk, get?_erase_of_ne hk.symm, get?_erase_of_ne hk.symm⟩
  split
  · exact .throw _
  · exact .throw _
  · next e hnot hentry =>
    have hfolder : place.entry ≠ some .folder := by
      rw [hentry]
      exact fun heq => hnot (by simpa using heq)
    cases hdemands : p.demandsFolder with
    | true => exact .throw_bind _ _
    | false => exact herased hfolder

end FileAction

/-! ## Moving -/

namespace FileTree

variable {t t' : FileTree} {k l origin goal : Location}

/-- What can be moved in the first tree can be moved in the second one, to the same effect. -/
theorem SameBut.relocate (h : SameBut l t t') (hmove : Movable t origin goal)
    (htree : (t.relocate origin goal).WellFormed) (horigin : ¬ origin <+: l)
    (hgoal : ¬ goal <+: l) : SameBut l (t.relocate origin goal) (t'.relocate origin goal) ∧
      (t.relocate origin goal).get? l = t.get? l ∧
      (t'.relocate origin goal).get? l = t'.get? l := by
  have hoff {place k : Location} (hplace : ¬ place <+: l) (hpre : place <+: k) : k ≠ l := by
    rintro rfl
    exact hplace hpre
  have hmove' : Movable t' origin goal := by
    refine ⟨?_, hmove.differ, hmove.outside, fun k hpre hne => ?_⟩
    · rw [h.get?_of_ne origin (hoff horigin (List.prefix_refl _))]
      exact hmove.there
    · rw [h.get?_of_ne k (hoff hgoal hpre)]
      exact hmove.vacant k hpre hne
  have hkept : (t.relocate origin goal).get? l = t.get? l := by
    rw [hmove.get?_relocate, if_neg hgoal, if_neg horigin]
  have hkept' : (t'.relocate origin goal).get? l = t'.get? l := by
    rw [hmove'.get?_relocate, if_neg hgoal, if_neg horigin]
  refine ⟨h.of_get?_eq htree h.working h.clock h.room h.room' (fun k hk => ?_) hkept hkept',
    hkept, hkept'⟩
  rw [hmove.get?_relocate, hmove'.get?_relocate]
  split_ifs
  · exact h.get?_of_ne _ (hoff horigin (List.prefix_append _ _))
  · rfl
  · exact h.get?_of_ne k hk

theorem SameBut.isEmpty_below_eq (h : SameBut l t t') (hgoal : ¬ goal <+: l) :
    (t'.below goal).isEmpty = (t.below goal).isEmpty := by
  have hget (k : Location) (hpre : goal <+: k) : t'.get? k = t.get? k := by
    refine h.get?_of_ne k ?_
    rintro rfl
    exact hgoal hpre
  rw [Bool.eq_iff_iff, isEmpty_below_iff, isEmpty_below_iff]
  refine forall_congr' fun k => forall_congr' fun hpre => ?_
  rw [hget k hpre]

/-- A path leads neither over the location, nor to a folder around it or around the working
folder. -/
structure Bypasses (t : FileTree) (l : Location) (p : Path) : Prop where
  notOver : ¬ t.Passes l p
  around : ∀ place, t.placeOf false p = .ok place →
    ¬ place.location <+: l ∧ ¬ place.location <+: t.working

/-- Without links a path bypasses the location if what it spells out does. -/
theorem bypasses_of_linkFree (hlinks : t.LinkFree) {p : Path}
    (hover : ∀ n ≤ p.components.length, Path.walk t.working (p.components.take n) ≠ l)
    (haround : ¬ t.locationOf p <+: l) (hworking : ¬ t.locationOf p <+: t.working) :
    t.Bypasses l p where
  notOver hpasses := by
    obtain ⟨cs, hcs, hwalk⟩ := LeadsOver.exists_prefix hpasses hlinks
    rw [List.prefix_iff_eq_take.1 hcs] at hwalk
    exact hover _ hcs.length_le hwalk
  around place hplace := by
    rw [placeOf_eq hlinks hplace]
    exact ⟨haround, hworking⟩

end FileTree

namespace FileAction

open FileTree

variable {t t' : FileTree} {l : Location}

/-- Moving an entry ignores the file if neither place is around its location or around the working
folder. -/
theorem ignores_moveEntry {origin goal : Location} {moved : Entry}
    (hthere : t.get? origin = some moved) (hparent : t.get? goal.dropLast = some .folder)
    (hdiffer : origin ≠ goal) (hinside : moved.isFolder = true → ¬ origin <+: goal)
    (hvacant : ∀ k, goal <+: k → goal ≠ k → t.get? k = none)
    (horigin : ¬ origin <+: l ∧ ¬ origin <+: t.working)
    (hgoal : ¬ goal <+: l ∧ ¬ goal <+: t.working) : Ignores l (moveEntry origin goal) t := by
  refine .modify fun t' h => ?_
  have houtside : ¬ origin <+: goal := fun hpre => by
    have habove := h.wellFormed.folder_above_of_parent hparent hpre hdiffer
    obtain rfl : moved = .folder := Option.some.inj (hthere.symm.trans habove)
    exact hinside rfl hpre
  have hmovable : Movable t origin goal := ⟨by rw [hthere]; rfl, hdiffer, houtside, hvacant⟩
  have htree := hmovable.wellFormed h.wellFormed hparent horigin.2 hgoal.2
  exact h.relocate hmovable htree horigin.1 hgoal.1

/-- Renaming ignores the file if both paths bypass its location. -/
theorem ignores_rename {source target : Path} (hsource : t.Bypasses l source)
    (htarget : t.Bypasses l target) : Ignores l (rename source target) t := by
  refine .of_sameBut fun t' h => ?_
  refine .look_bind (fun t' h => h.placeOf_eq hsource.notOver false) fun origin horigin => ?_
  refine .look_bind (fun t' h => h.placeOf_eq htarget.notOver false) fun goal hgoal => ?_
  obtain ⟨origin, entry⟩ := origin
  cases entry with
  | none => exact .throw _
  | some moved =>
    have hthere : t.get? origin = some moved := (entry_of_placeOf horigin).symm
    have hentry := entry_of_placeOf hgoal
    have hmove (hdiffer : ¬ (origin == goal.location) = true)
        (hinside : ¬ (moved.isFolder && origin.isPrefixOf goal.location) = true)
        (hvacant : ∀ k, goal.location <+: k → goal.location ≠ k → t.get? k = none) :
        Ignores l (moveEntry origin goal.location) t :=
      ignores_moveEntry hthere (parent_of_placeOf h.wellFormed hgoal) (by simpa using hdiffer)
        (by simpa using hinside) hvacant (hsource.around _ horigin) (htarget.around _ hgoal)
    -- The checks are the same for both trees.
    refine .ite (fun _ => .throw_bind _ _) fun _ => ?_
    refine .ite (fun _ => .throw_bind _ _) fun _ => ?_
    refine .ite (fun _ => .throw_bind _ _) fun _ => ?_
    refine .ite (fun _ => .pure ()) fun hdiffer => ?_
    refine .ite (fun _ => .throw _) fun hinside => ?_
    split
    · next hnothing =>
      refine hmove hdiffer hinside (h.wellFormed.vacant_below ?_)
      rw [← hentry, hnothing]
      simp
    · refine .ite (fun _ => .throw _) fun _ => ?_
      have hto : ¬ goal.location <+: l := (htarget.around _ hgoal).1
      refine .get_bind (fun t' h => by simp only [h.isEmpty_below_eq hto]) ?_
      refine .ite (fun _ => .throw _) fun hempty => ?_
      exact hmove hdiffer hinside ((isEmpty_below_iff t goal.location).1 (by simpa using hempty))
    · next e hnot hother =>
      refine .ite (fun _ => .throw _) fun _ => ?_
      refine hmove hdiffer hinside (h.wellFormed.vacant_below ?_)
      rw [← hentry, hother]
      exact fun heq => hnot (by simpa using heq)

end FileAction

end PhotoIntake
