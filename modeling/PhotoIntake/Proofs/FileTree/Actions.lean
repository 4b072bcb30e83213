import PhotoIntake.Proofs.FileTree.Following

/-!
# What actions do to a file tree

Each action has one lemma that says all that it can do, so that no later proof unfolds it.

* `runOn_bind` and its companions run an action step by step.
* `FoldersAdded` relates a tree to one with more folders.  `createFolders_adds` is the result about
  any tree, and `createFolders_adds_prefixes` says which folders a tree without links gets.
* `copyFile_cases`, `rename_cases` and `removeFile_cases` list the outcomes of the actions on files.
-/

namespace PhotoIntake

namespace FileAction

open FileTree

variable {α β : Type} {t t' : FileTree}

/-! ## Running an action step by step -/

@[simp] theorem runOn_pure (a : α) (t : FileTree) : (pure a : FileAction α).runOn t = (.ok a, t) :=
  rfl

theorem runOn_bind (action : FileAction α) (f : α → FileAction β) (t : FileTree) :
    (action >>= f).runOn t =
      match action.runOn t with
      | (.ok a, t') => (f a).runOn t'
      | (.error e, t') => (.error e, t') := by
  simp only [runOn, ExceptT.run, bind, ExceptT.bind, ExceptT.mk, StateT.run, StateT.bind,
    ExceptT.bindCont]
  rcases action t with ⟨r | r, t'⟩ <;> rfl

@[simp] theorem runOn_throw (e : FileError) (t : FileTree) :
    (throw e : FileAction α).runOn t = (.error e, t) := rfl

@[simp] theorem runOn_modify (f : FileTree → FileTree) (t : FileTree) :
    (modify f : FileAction PUnit).runOn t = (.ok (), f t) := rfl

@[simp] theorem runOn_get (t : FileTree) : (get : FileAction FileTree).runOn t = (.ok t, t) := rfl

@[simp] theorem runOn_set (t t' : FileTree) :
    (set t' : FileAction PUnit).runOn t = (.ok (), t') := rfl

@[simp] theorem runOn_look (f : FileTree → Except FileError α) (t : FileTree) :
    (look f).runOn t = (f t, t) := by
  rw [look, runOn_bind, runOn_get]
  dsimp only
  cases f t <;> rfl

theorem runOn_tryCatch (action : FileAction α) (handler : FileError → FileAction α)
    (t : FileTree) :
    (tryCatch action handler : FileAction α).runOn t =
      match action.runOn t with
      | (.ok a, t') => (.ok a, t')
      | (.error e, t') => (handler e).runOn t' := by
  simp only [runOn, ExceptT.run, tryCatch, tryCatchThe, MonadExceptOf.tryCatch, ExceptT.tryCatch,
    ExceptT.mk, StateT.run, bind, StateT.bind]
  rcases action t with ⟨r | r, t'⟩ <;> rfl

theorem runOn_ite {c : Prop} [Decidable c] (action other : FileAction α) (t : FileTree) :
    (if c then action else other).runOn t = if c then action.runOn t else other.runOn t := by
  split <;> rfl

theorem treeAfter_of_runOn {action : FileAction α} {r : Except FileError α}
    (h : action.runOn t = (r, t')) : action.treeAfter t = t' := by
  rw [treeAfter, h]

/-! ## Folders -/

end FileAction

namespace FileTree

/-- The second tree is the first one with folders added at some of the locations. -/
structure FoldersAdded (P : Location → Prop) (t t' : FileTree) : Prop where
  working : t'.working = t.working
  get? : ∀ l, t'.get? l = t.get? l ∨ P l ∧ t.get? l = none ∧ t'.get? l = some .folder
  wellFormed : t.WellFormed → t'.WellFormed

namespace FoldersAdded

variable {P : Location → Prop} {t t' t'' : FileTree}

theorem refl (P : Location → Prop) (t : FileTree) : FoldersAdded P t t :=
  ⟨rfl, fun _ => Or.inl rfl, id⟩

theorem trans (h : FoldersAdded P t t') (h' : FoldersAdded P t' t'') : FoldersAdded P t t'' := by
  refine ⟨h'.working.trans h.working, fun l => ?_, fun htree => h'.wellFormed (h.wellFormed htree)⟩
  rcases h.get? l with heq | ⟨hP, hnone, hfolder⟩
  · rcases h'.get? l with heq' | ⟨hP, hnone, hfolder⟩
    · exact Or.inl (heq'.trans heq)
    · exact Or.inr ⟨hP, heq ▸ hnone, hfolder⟩
  · rcases h'.get? l with heq' | ⟨-, hnone', -⟩
    · exact Or.inr ⟨hP, hnone, heq'.trans hfolder⟩
    · simp [hfolder] at hnone'

/-- What was there stays. -/
theorem get?_of_isSome (h : FoldersAdded P t t') {l : Location} (hl : (t.get? l).isSome) :
    t'.get? l = t.get? l := by
  rcases h.get? l with heq | ⟨-, hnone, -⟩
  · exact heq
  · simp [hnone] at hl

theorem linkFree (h : FoldersAdded P t t') (hlinks : t.LinkFree) : t'.LinkFree := by
  intro l target hlink
  rcases h.get? l with heq | ⟨-, -, hfolder⟩
  · exact hlinks l target (heq ▸ hlink)
  · simp [hfolder] at hlink

/-- A file was there before. -/
theorem get?_of_file (h : FoldersAdded P t t') {l : Location} {content : ByteArray} {modified : Int}
    (hfile : t'.get? l = some (.file content modified)) :
    t.get? l = some (.file content modified) := by
  rcases h.get? l with heq | ⟨-, -, hfolder⟩
  · exact heq ▸ hfile
  · simp [hfolder] at hfile

end FoldersAdded

/-- Putting something that is no folder where no folder is, in a folder, keeps a tree well
formed. -/
theorem WellFormed.set {t : FileTree} (htree : t.WellFormed) {l : Location} {e : Entry}
    (hparent : t.get? l.dropLast = some .folder)
    (hl : t.get? l = some .folder → e = .folder) : (t.set l e).WellFormed := by
  have hfolder {k : Location} (hk : t.get? k = some .folder) :
      (t.set l e).get? k = some .folder := by
    by_cases hkl : k = l
    · subst hkl
      by_cases hnil : k = []
      · subst hnil
        rfl
      · rw [get?_set_self hnil, hl hk]
    · rw [get?_set_of_ne hkl, hk]
  refine ⟨fun k hk => hfolder ?_, hfolder htree.working⟩
  by_cases hkl : k = l
  · rwa [hkl]
  · rw [get?_set_of_ne hkl] at hk
    exact htree.parent k hk

end FileTree

namespace FileAction

open FileTree
open PhotoIntake.Path (Component)

variable {t t' : FileTree} {P : Location → Prop}

/-- A folder is created where its path leads and nothing is. -/
theorem createFolder_adds {p : Path} (hP : ∀ l, t.locate false p = .ok ⟨l, none⟩ → P l) :
    FoldersAdded P t ((createFolder p).treeAfter t) := by
  rw [treeAfter, createFolder, runOn_bind, runOn_look]
  cases hplace : t.locate false p with
  | error e => exact FoldersAdded.refl P t
  | ok place =>
    obtain ⟨l, entry⟩ := place
    cases entry with
    | some e => exact FoldersAdded.refl P t
    | none =>
      have hnone : t.get? l = none := (entry_of_placeOf hplace).symm
      have hl : l ≠ [] := by
        rintro rfl
        simp at hnone
      refine ⟨rfl, fun k => ?_, fun htree => ?_⟩
      · by_cases hk : k = l
        · subst hk
          exact Or.inr ⟨hP k hplace, hnone, get?_set_self hl⟩
        · exact Or.inl (get?_set_of_ne hk)
      · exact htree.set (parent_of_placeOf htree hplace) fun _ => rfl

theorem ensureFolder_adds {p : Path} (hP : ∀ l, t.locate false p = .ok ⟨l, none⟩ → P l) :
    FoldersAdded P t ((ensureFolder p).treeAfter t) := by
  have hcreate := createFolder_adds hP
  rw [treeAfter] at hcreate ⊢
  rw [ensureFolder, runOn_tryCatch]
  rcases hrun : (createFolder p).runOn t with ⟨e | _, t'⟩
  · rw [hrun] at hcreate
    simp only [runOn_bind, runOn_get, runOn_ite]
    split <;> exact hcreate
  · simpa only [hrun] using hcreate

/-- Folders are created where the paths of the outer components lead and nothing is. -/
theorem ensureFoldersUp_adds {Q : FileTree → Prop}
    (hQ : ∀ t t', Q t → FoldersAdded P t t' → Q t') {cs : List Component}
    (hP : ∀ ds t l, ds <:+ cs → Q t →
      t.locate false (Path.ofComponents ds.reverse) = .ok ⟨l, none⟩ → P l)
    (ht : Q t) : FoldersAdded P t ((ensureFoldersUp cs).treeAfter t) := by
  induction cs generalizing t with
  | nil => exact FoldersAdded.refl P t
  | cons c outer ih =>
    have hensure {t : FileTree} (ht : Q t) :
        FoldersAdded P t ((ensureFolder (Path.ofComponents (c :: outer).reverse)).treeAfter t) :=
      ensureFolder_adds fun l hl => hP (c :: outer) t l (List.suffix_refl _) ht hl
    have houter {t : FileTree} (ht : Q t) :
        FoldersAdded P t ((ensureFoldersUp outer).treeAfter t) :=
      ih (fun ds t l hds => hP ds t l (hds.trans (List.suffix_cons _ _))) ht
    have hfirst := hensure ht
    rw [treeAfter] at hfirst ⊢
    rw [ensureFoldersUp, runOn_tryCatch]
    rcases hrun : (ensureFolder (Path.ofComponents (c :: outer).reverse)).runOn t with ⟨e | _, t₁⟩
    all_goals rw [hrun] at hfirst
    · cases e with
      | missing =>
        have hafter := houter (hQ _ _ ht hfirst)
        rw [treeAfter] at hafter
        show FoldersAdded P t (FileAction.runOn (do
          ensureFoldersUp outer
          ensureFolder (Path.ofComponents (c :: outer).reverse)) t₁).2
        rw [runOn_bind]
        rcases hrun' : (ensureFoldersUp outer).runOn t₁ with ⟨e | _, t₂⟩
        all_goals rw [hrun'] at hafter
        · exact hfirst.trans hafter
        · exact (hfirst.trans hafter).trans (hensure (hQ _ _ (hQ _ _ ht hfirst) hafter))
      | _ => exact hfirst
    · exact hfirst

/-- Creating nested folders adds folders and changes nothing else. -/
theorem createFolders_adds (p : Path) (t : FileTree) :
    FoldersAdded (fun _ => True) t ((createFolders p).treeAfter t) :=
  ensureFoldersUp_adds (Q := fun _ => True) (fun _ _ _ _ => trivial) (fun _ _ _ _ _ _ => trivial)
    trivial

/-- Without links the folders that are added are those that the path names on its way. -/
theorem createFolders_adds_prefixes (hlinks : t.LinkFree) (p : Path) :
    FoldersAdded (fun l => ∃ cs, cs <+: p.components ∧ l = Path.walk t.working cs) t
      ((createFolders p).treeAfter t) := by
  refine ensureFoldersUp_adds (Q := fun t' => t'.LinkFree ∧ t'.working = t.working) ?_ ?_
    ⟨hlinks, rfl⟩
  · rintro t₁ t₂ ⟨hlinks₁, hworking₁⟩ hadded
    exact ⟨hadded.linkFree hlinks₁, hadded.working.trans hworking₁⟩
  · rintro ds t₁ l hds ⟨hlinks₁, hworking₁⟩ hlocate
    have hpre : ds.reverse <+: p.components := by
      simpa using List.reverse_prefix.2 hds
    obtain ⟨rest, hrest⟩ := hpre
    have hcanonical : Path.Canonical ds.reverse :=
      Path.Canonical.of_append (hrest ▸ Path.canonical_components p)
    have hl : l = t₁.locationOf (Path.ofComponents ds.reverse) :=
      congrArg Place.location (locate_eq hlinks₁ hlocate)
    rw [locationOf, Path.components_ofComponents hcanonical, hworking₁] at hl
    exact ⟨ds.reverse, ⟨rest, hrest⟩, hl⟩

end FileAction

/-! ## Writing files -/

namespace FileTree

/-- The second tree is the first one but for a file at a location. -/
structure FilePut (l : Location) (t t' : FileTree) : Prop where
  working : t'.working = t.working
  get?_of_ne : ∀ k, k ≠ l → t'.get? k = t.get? k
  file : ∃ content modified, t'.get? l = some (.file content modified)

namespace FilePut

variable {t t' : FileTree} {l : Location}

theorem linkFree (h : FilePut l t t') (hlinks : t.LinkFree) : t'.LinkFree := by
  intro k target hlink
  by_cases hk : k = l
  · obtain ⟨content, modified, hfile⟩ := h.file
    rw [hk, hfile] at hlink
    simp at hlink
  · exact hlinks k target (h.get?_of_ne k hk ▸ hlink)

theorem get?_folder (h : FilePut l t t') (hl : t.get? l ≠ some .folder) {k : Location}
    (hk : t.get? k = some .folder) : t'.get? k = some .folder := by
  have hkl : k ≠ l := by
    rintro rfl
    exact hl hk
  rw [h.get?_of_ne k hkl, hk]

theorem wellFormed (h : FilePut l t t') (htree : t.WellFormed) (hl : t.get? l ≠ some .folder)
    (hparent : t.get? l.dropLast = some .folder) : t'.WellFormed := by
  refine ⟨fun k hk => h.get?_folder hl ?_, h.get?_folder hl (h.working ▸ htree.working)⟩
  by_cases hkl : k = l
  · rwa [hkl]
  · rw [h.get?_of_ne k hkl] at hk
    exact htree.parent k hk

end FilePut

/-- Filling an opened file leaves a file in its place. -/
theorem filePut_fill {t : FileTree} {l : Location} (hl : l ≠ []) (e : Entry)
    (content : ByteArray) : FilePut l t ((t.set l e).fill l content).1 := by
  refine ⟨by simp, fun k hk => ?_, get?_fill_self hl content⟩
  rw [get?_fill_of_ne hk, get?_set_of_ne hk]

theorem filePut_set {t : FileTree} {l : Location} (hl : l ≠ []) (content : ByteArray)
    (modified : Int) : FilePut l t (t.set l (.file content modified)) :=
  ⟨rfl, fun _ hk => get?_set_of_ne hk, _, _, get?_set_self hl⟩

end FileTree

namespace FileAction

open FileTree

/-- Opening fails, or meets the full device, or puts an empty file where the path leads. -/
theorem openEmpty_cases (p : Path) (t : FileTree) :
    (∃ e, (openEmpty p).runOn t = (.error e, t)) ∨
      (∃ l, t.locate true p = .ok ⟨l, some .fullDevice⟩ ∧ (openEmpty p).runOn t = (.ok none, t)) ∨
      ∃ l entry, t.locate true p = .ok ⟨l, entry⟩ ∧ p.demandsFolder = false ∧
        entry ≠ some .folder ∧
        (openEmpty p).runOn t = (.ok (some l), t.set l (.file ByteArray.empty t.clock)) := by
  cases hplace : t.locate true p with
  | error e =>
    refine Or.inl ⟨e, ?_⟩
    rw [openEmpty, runOn_bind, runOn_look, hplace]
  | ok place =>
    obtain ⟨l, entry⟩ := place
    cases hdemands : p.demandsFolder with
    | true =>
      refine Or.inl ⟨.isFolder, ?_⟩
      rw [openEmpty, runOn_bind, runOn_look, hplace]
      simp [hdemands]
    | false =>
      rcases entry with _ | ⟨content, modified⟩ | _ | target | _
      · refine Or.inr (Or.inr ⟨l, none, rfl, rfl, by simp, ?_⟩)
        rw [openEmpty, runOn_bind, runOn_look, hplace]
        simp [hdemands]
        rfl
      · refine Or.inr (Or.inr ⟨l, _, rfl, rfl, by simp, ?_⟩)
        rw [openEmpty, runOn_bind, runOn_look, hplace]
        simp [hdemands]
        rfl
      · refine Or.inl ⟨.isFolder, ?_⟩
        rw [openEmpty, runOn_bind, runOn_look, hplace]
        simp [hdemands]
      · refine Or.inr (Or.inr ⟨l, _, rfl, rfl, by simp, ?_⟩)
        rw [openEmpty, runOn_bind, runOn_look, hplace]
        simp [hdemands]
        rfl
      · refine Or.inr (Or.inl ⟨l, rfl, ?_⟩)
        rw [openEmpty, runOn_bind, runOn_look, hplace]
        simp [hdemands]

theorem runOn_writeAll_some (l : Location) (content : ByteArray) (t : FileTree) :
    (writeAll (some l) content).runOn t =
      (if (t.fill l content).2 then .ok () else .error .noRoom, (t.fill l content).1) := by
  cases hfill : (t.fill l content).2 with
  | true => simp [writeAll, runOn_bind, hfill]
  | false => simp [writeAll, runOn_bind, hfill]

theorem treeAfter_writeAll_none (content : ByteArray) (t : FileTree) :
    (writeAll none content).treeAfter t = t := by
  rw [treeAfter, writeAll]
  split <;> rfl

/-- The second half of copying: read the source at its location and fill the opened target. -/
def fillFrom (k : Location) (opened : Option Location) : FileAction Unit := do
  let content ← look (·.contentAt k)
  writeAll opened content

theorem runOn_copyFile {source target : Path} {k : Location} {content : ByteArray} {modified : Int}
    (h : t.entry? source = some (k, .file content modified)) :
    (copyFile source target).runOn t = (openEmpty target >>= fillFrom k).runOn t := by
  rewrite [copyFile, runOn_bind, runOn_look, h]
  rfl

/-- What is no file is not copied. -/
theorem copyFile_fails {source : Path} (target : Path)
    (h : ¬ ∃ k content modified, t.entry? source = some (k, .file content modified)) :
    ∃ e, (copyFile source target).runOn t = (.error e, t) := by
  rw [copyFile, runOn_bind, runOn_look]
  rcases hsource : t.entry? source with _ | ⟨k, e⟩
  · exact ⟨_, rfl⟩
  · cases e with
    | file content modified => exact absurd ⟨k, content, modified, hsource⟩ h
    | _ => exact ⟨_, rfl⟩

theorem treeAfter_fillFrom_none (k : Location) (t : FileTree) :
    (fillFrom k none).treeAfter t = t := by
  rw [treeAfter, fillFrom, runOn_bind, runOn_look]
  rcases t.contentAt k with e | content
  · rfl
  · exact treeAfter_writeAll_none content t

/-- Filling an emptied target leaves a file there, also where the source cannot be read. -/
theorem filePut_fillFrom {l : Location} (hl : l ≠ []) (k : Location) (modified : Int)
    (t : FileTree) :
    FilePut l t ((fillFrom k (some l)).treeAfter (t.set l (.file ByteArray.empty modified))) := by
  rw [treeAfter, fillFrom, runOn_bind, runOn_look]
  rcases (t.set l (.file ByteArray.empty modified)).contentAt k with e | content
  · exact filePut_set hl _ _
  · dsimp only
    rw [runOn_writeAll_some]
    exact filePut_fill hl _ _

/-- When all bytes of the source were written, they are what the target holds. -/
theorem get?_fillFrom {k l : Location} {content : ByteArray} {modified : Int} (hl : l ≠ [])
    (hk : t.get? k = some (.file content modified))
    (hok : (fillFrom k (some l)).succeeds t = true) :
    ∃ modified', ((fillFrom k (some l)).treeAfter t).get? l = some (.file content modified') := by
  have hrun : (fillFrom k (some l)).runOn t = (writeAll (some l) content).runOn t := by
    rw [fillFrom, runOn_bind, runOn_look, contentAt, hk]
  rw [runOn_writeAll_some] at hrun
  rw [succeeds, hrun] at hok
  rw [treeAfter, hrun]
  refine get?_fill_complete hl ?_
  by_contra hfill
  simp [hfill] at hok

/-- Copying leaves the tree as it is, or puts a file where the target leads; if it succeeds, the
file holds the bytes of the source. -/
theorem copyFile_cases (source target : Path) (t : FileTree) :
    (copyFile source target).treeAfter t = t ∧
        ((copyFile source target).succeeds t = true →
          ∃ l, t.locate true target = .ok ⟨l, some .fullDevice⟩) ∨
      ∃ l entry, t.locate true target = .ok ⟨l, entry⟩ ∧ target.demandsFolder = false ∧
        entry ≠ some .folder ∧ FilePut l t ((copyFile source target).treeAfter t) ∧
        ((copyFile source target).succeeds t = true →
          ∀ k content modified, t.entry? source = some (k, .file content modified) → k ≠ l →
            ∃ modified', ((copyFile source target).treeAfter t).get? l =
              some (.file content modified')) := by
  by_cases hfile : ∃ k content modified, t.entry? source = some (k, .file content modified)
  · obtain ⟨k, content, modified, hsource⟩ := hfile
    have hrun := @runOn_copyFile t source target k content modified hsource
    rw [runOn_bind] at hrun
    rcases openEmpty_cases target t with ⟨e, hopen⟩ | ⟨l, hplace, hopen⟩ |
      ⟨l, entry, hplace, hdemands, hentry, hopen⟩
    all_goals rw [hopen] at hrun
    · refine Or.inl ⟨treeAfter_of_runOn hrun, ?_⟩
      simp [succeeds, hrun]
    · refine Or.inl ⟨?_, fun _ => ⟨l, hplace⟩⟩
      rw [treeAfter, hrun]
      exact treeAfter_fillFrom_none k t
    · have hl : l ≠ [] := by
        rintro rfl
        exact hentry (entry_of_placeOf hplace)
      -- The target is empty by now, so the source is read from the tree after that.
      let opened := t.set l (.file ByteArray.empty t.clock)
      have hafter : (copyFile source target).treeAfter t =
          (fillFrom k (some l)).treeAfter opened := by
        rw [treeAfter, hrun, treeAfter]
      have hsucceeds : (copyFile source target).succeeds t =
          (fillFrom k (some l)).succeeds opened := by
        rw [succeeds, hrun, succeeds]
      rw [hafter, hsucceeds]
      refine Or.inr ⟨l, entry, hplace, hdemands, hentry, filePut_fillFrom hl k t.clock t, ?_⟩
      intro hok k' content' modified' hk' hne
      obtain ⟨rfl, rfl, rfl⟩ : k = k' ∧ content = content' ∧ modified = modified' := by
        simpa [hsource] using hk'
      have hread : opened.get? k = some (.file content modified) := by
        rw [get?_set_of_ne hne]
        exact (entry_of_placeOf (entry?_eq_some_iff.1 hsource).1).symm
      exact get?_fillFrom hl hread hok
  · obtain ⟨e, hfail⟩ := copyFile_fails target hfile
    refine Or.inl ⟨treeAfter_of_runOn hfail, ?_⟩
    simp [succeeds, hfail]

/-! ## Moving and removing -/

/-- Renaming between two places that were found fails and changes nothing, or finds them to be one,
or moves what stands at the first one. -/
theorem rename_cases_of_places {source target : Path} {origin : Location} {moved : Entry}
    {goal : Place} (horigin : t.placeOf false source = .ok ⟨origin, some moved⟩)
    (hgoal : t.placeOf false target = .ok goal) :
    (∃ e, (rename source target).runOn t = (.error e, t)) ∨
      (rename source target).runOn t = (.ok (), t) ∧ origin = goal.location ∨
      (rename source target).runOn t = (.ok (), t.relocate origin goal.location) ∧
        origin ≠ goal.location ∧ (moved.isFolder = true → ¬ origin <+: goal.location) := by
  generalize hrun : (rename source target).runOn t = result
  rw [rename, runOn_bind, runOn_look, horigin] at hrun
  simp only at hrun
  rw [runOn_bind, runOn_look, hgoal] at hrun
  simp only at hrun
  have failed {e : FileError} (h : (.error e, t) = result) : ∃ e, result = (.error e, t) :=
    ⟨e, h.symm⟩
  -- The guards in their order, then what stands at the second place.
  by_cases hname : (!endsInName source || !endsInName target) = true
  · rw [if_pos hname] at hrun
    exact Or.inl (failed hrun)
  rw [if_neg hname] at hrun
  by_cases hdemands : ((source.demandsFolder || target.demandsFolder) && !moved.isFolder) = true
  · rw [if_pos hdemands] at hrun
    exact Or.inl (failed hrun)
  rw [if_neg hdemands] at hrun
  by_cases hdevice : (isAmongDevices origin != isAmongDevices goal.location) = true
  · rw [if_pos hdevice] at hrun
    exact Or.inl (failed hrun)
  rw [if_neg hdevice] at hrun
  by_cases hsame : (origin == goal.location) = true
  · rw [if_pos hsame] at hrun
    exact Or.inr (Or.inl ⟨hrun.symm, by simpa using hsame⟩)
  rw [if_neg hsame] at hrun
  by_cases hinside : (moved.isFolder && origin.isPrefixOf goal.location) = true
  · rw [if_pos hinside] at hrun
    exact Or.inl (failed hrun)
  rw [if_neg hinside] at hrun
  have hne : origin ≠ goal.location := by simpa using hsame
  have hoff : moved.isFolder = true → ¬ origin <+: goal.location := by simpa using hinside
  have hmoved (h : (moveEntry origin goal.location).runOn t = result) :
      result = (.ok (), t.relocate origin goal.location) := h.symm
  suffices h : (∃ e, result = (.error e, t)) ∨
      result = (.ok (), t.relocate origin goal.location) from
    h.imp_right fun h => Or.inr ⟨h, hne, hoff⟩
  rcases hentry : goal.entry with _ | e
  · rw [hentry] at hrun
    exact Or.inr (hmoved hrun)
  · rw [hentry] at hrun
    cases e with
    | folder =>
      simp only [runOn_ite, runOn_throw, runOn_bind, runOn_get] at hrun
      split_ifs at hrun
      · exact Or.inl (failed hrun)
      · exact Or.inl (failed hrun)
      · exact Or.inr (hmoved hrun)
    | _ =>
      simp only [runOn_ite, runOn_throw] at hrun
      split_ifs at hrun
      · exact Or.inl (failed hrun)
      · exact Or.inr (hmoved hrun)

/-- Renaming fails and changes nothing, or finds the two places to be one, or moves what stands at
the first place to the second one, where nothing stands or something of its kind. -/
theorem rename_cases (source target : Path) (t : FileTree) :
    (∃ e, (rename source target).runOn t = (.error e, t)) ∨
      ∃ origin goal moved, t.placeOf false source = .ok ⟨origin, some moved⟩ ∧
        t.placeOf false target = .ok goal ∧
        ((rename source target).runOn t = (.ok (), t) ∧ origin = goal.location ∨
          (rename source target).runOn t = (.ok (), t.relocate origin goal.location) ∧
            origin ≠ goal.location ∧
            (moved.isFolder = true → ¬ origin <+: goal.location)) := by
  cases horigin : t.placeOf false source with
  | error e =>
    refine Or.inl ⟨e, ?_⟩
    simp only [rename, runOn_bind, runOn_look, horigin]
  | ok origin =>
    cases hgoal : t.placeOf false target with
    | error e =>
      refine Or.inl ⟨e, ?_⟩
      simp only [rename, runOn_bind, runOn_look, horigin, hgoal]
    | ok goal =>
      obtain ⟨origin, entry⟩ := origin
      cases entry with
      | none =>
        refine Or.inl ⟨.missing, ?_⟩
        simp only [rename, runOn_bind, runOn_look, horigin, hgoal, runOn_throw]
      | some moved =>
        refine (rename_cases_of_places horigin hgoal).imp_right fun h => ?_
        exact ⟨origin, goal, moved, rfl, rfl, h⟩

/-- Removing fails and changes nothing, or takes away what the path leads to, which is no folder. -/
theorem removeFile_cases (p : Path) (t : FileTree) :
    (∃ e, (removeFile p).runOn t = (.error e, t)) ∨
      ∃ l e, t.locate false p = .ok ⟨l, some e⟩ ∧ e ≠ .folder ∧
        (removeFile p).runOn t = (.ok (), t.erase l) := by
  cases hplace : t.locate false p with
  | error e =>
    refine Or.inl ⟨e, ?_⟩
    rw [removeFile, runOn_bind, runOn_look, hplace]
  | ok place =>
    obtain ⟨l, entry⟩ := place
    rcases entry with _ | e
    · refine Or.inl ⟨.missing, ?_⟩
      rw [removeFile, runOn_bind, runOn_look, hplace]
      rfl
    · by_cases hfolder : e = .folder
      · refine Or.inl ⟨.isFolder, ?_⟩
        rw [removeFile, runOn_bind, runOn_look, hplace, hfolder]
        rfl
      · cases hdemands : p.demandsFolder with
        | true =>
          refine Or.inl ⟨.notFolder, ?_⟩
          rw [removeFile, runOn_bind, runOn_look, hplace]
          cases e <;> simp [hdemands] at hfolder ⊢
        | false =>
          refine Or.inr ⟨l, e, rfl, hfolder, ?_⟩
          rw [removeFile, runOn_bind, runOn_look, hplace]
          cases e <;> simp [hdemands] at hfolder ⊢

end FileAction

end PhotoIntake
