import PhotoIntake.Proofs.Download.FreeName
import PhotoIntake.Proofs.FileTree.Actions

/-!
# What a transfer does to the files

A transfer has two halves: the folders of the target are created, and the file is delivered.

* `run_puts`: in any tree, a file that a transfer leaves and that was not there before
  stands where the target leads, or below.
* `Vacant`: the targets at which nothing is, and `Outcome` the ways in which a delivery to one of
  them can go if the tree has no links: it changes nothing, or it puts a file at the target, or it
  takes the file from the source to the target.
* `run_delivers` is what comes of a whole transfer to such a target.
-/

namespace PhotoIntake

namespace FileTree

variable {t t' : FileTree} {source target : Location} {content : ByteArray} {modified : Int}

/-! ## Files that change their location -/

/-- The second tree is the first one but for a file that went from one location to another. -/
structure FileMoved (source target : Location) (content : ByteArray) (t t' : FileTree) : Prop where
  working : t'.working = t.working
  get?_of_ne : ∀ k, k ≠ source → k ≠ target → t'.get? k = t.get? k
  get?_source : t'.get? source = none
  file : ∃ modified, t'.get? target = some (.file content modified)

namespace FileMoved

theorem linkFree (h : FileMoved source target content t t') (hlinks : t.LinkFree) :
    t'.LinkFree := by
  intro k link hlink
  by_cases hsource : k = source
  · simp [hsource, h.get?_source] at hlink
  · by_cases htarget : k = target
    · obtain ⟨modified, hfile⟩ := h.file
      simp [htarget, hfile] at hlink
    · exact hlinks k link (h.get?_of_ne k hsource htarget ▸ hlink)

/-- Folders stay, since neither location had one. -/
theorem get?_folder (h : FileMoved source target content t t')
    (hsource : t.get? source = some (.file content modified)) (htarget : t.get? target = none)
    {k : Location} (hk : t.get? k = some .folder) : t'.get? k = some .folder := by
  have hks : k ≠ source := by
    rintro rfl
    simp [hsource] at hk
  have hkt : k ≠ target := by
    rintro rfl
    simp [htarget] at hk
  rw [h.get?_of_ne k hks hkt, hk]

theorem wellFormed (h : FileMoved source target content t t') (htree : t.WellFormed)
    (hsource : t.get? source = some (.file content modified)) (htarget : t.get? target = none)
    (hparent : t.get? target.dropLast = some .folder) : t'.WellFormed := by
  refine ⟨fun k hk => h.get?_folder hsource htarget ?_,
    h.get?_folder hsource htarget (h.working ▸ htree.working)⟩
  by_cases hks : k = source
  · simp [hks, h.get?_source] at hk
  · by_cases hkt : k = target
    · rwa [hkt]
    · rw [h.get?_of_ne k hks hkt] at hk
      exact htree.parent k hk

end FileMoved

/-- Nothing stands below nothing. -/
theorem WellFormed.get?_below_none (htree : t.WellFormed) {l k : Location} (hl : t.get? l = none)
    (hpre : l <+: k) : t.get? k = none := by
  by_contra hk
  by_cases hne : l = k
  · exact hk (hne ▸ hl)
  · have hfolder := htree.folder_above (Option.isSome_iff_ne_none.2 hk) hpre hne
    simp [hl] at hfolder

/-- Moving the entry of a file to where nothing is moves the file. -/
theorem fileMoved_relocate (htree : t.WellFormed)
    (hsource : t.get? source = some (.file content modified)) (htarget : t.get? target = none) :
    FileMoved source target content t (t.relocate source target) := by
  have hs : source ≠ [] := by
    rintro rfl
    simp at hsource
  have ht : target ≠ [] := by
    rintro rfl
    simp at htarget
  have hne : source ≠ target := by
    rintro rfl
    simp [hsource] at htarget
  have hbelow {k : Location} (hpre : target <+: k) (hk : target ≠ k) :
      (t.relocate source target).get? k = none :=
    get?_relocate_below (fun k => htree.get?_below hsource)
      (fun k hpre _ => htree.get?_below_none htarget hpre) hpre hk
  refine ⟨rfl, fun k hks hkt => ?_, ?_, modified, ?_⟩
  · by_cases hpre : target <+: k
    · rw [hbelow hpre (Ne.symm hkt), htree.get?_below_none htarget hpre]
    · rw [get?_relocate_outside hs hpre]
      split_ifs with hsk
      · exact (htree.get?_below hsource hsk (Ne.symm hks)).symm
      · rfl
  · by_cases hpre : target <+: source
    · exact hbelow hpre (Ne.symm hne)
    · rw [get?_relocate_outside hs hpre, if_pos (List.prefix_refl _)]
  · rw [get?_relocate_self hs ht hne, hsource]

/-- So does putting it there and erasing it. -/
theorem FilePut.fileMoved_erase (h : FilePut target t t')
    (hfile : t'.get? target = some (.file content modified))
    (hs : source ≠ []) (hne : source ≠ target) :
    FileMoved source target content t (t'.erase source) := by
  refine ⟨h.working, fun k hks hkt => ?_, get?_erase_self hs, modified, ?_⟩
  · rw [get?_erase_of_ne hks, h.get?_of_ne k hkt]
  · rw [get?_erase_of_ne hne.symm, hfile]

/-- Erasing puts nothing anywhere. -/
theorem get?_of_get?_erase {l k : Location} {e : Entry} (h : (t.erase l).get? k = some e)
    (hfile : e ≠ .folder) : t.get? k = some e := by
  by_cases hk : k = l
  · subst hk
    by_cases hnil : k = []
    · subst hnil
      exact absurd (Option.some.inj h).symm hfile
    · simp [get?_erase_self hnil] at h
  · rwa [get?_erase_of_ne hk] at h

end FileTree

namespace Transfer

open FileTree FileAction

variable {mode : TransferMode} {source target : Path} {t : FileTree}

/-! ## The two halves of a transfer -/

/-- The first half: create the folders of the target. -/
def prepare (target : Path) : FileAction Unit :=
  match target.parentComponents? with
  | some outer => createFolders (Path.ofComponents outer)
  | none => pure ()

/-- The second half: deliver the file. -/
def deliver (mode : TransferMode) (source target : Path) : FileAction Unit :=
  match mode with
  | .copy => copyFile source target
  | .move => tryCatch (rename source target) fun _ => copyThenRemove source target

theorem run_eq_bind (mode : TransferMode) (source target : Path) :
    run mode source target = (prepare target >>= fun _ => deliver mode source target) := by
  unfold run prepare
  cases target.parentComponents? <;> rfl

theorem runOn_run (mode : TransferMode) (source target : Path) (t : FileTree) :
    (run mode source target).runOn t =
      match (prepare target).runOn t with
      | (.ok _, t') => (deliver mode source target).runOn t'
      | (.error e, t') => (.error e, t') := by
  rw [run_eq_bind, runOn_bind]
  rcases (prepare target).runOn t with ⟨e | _, t'⟩ <;> rfl

theorem prepare_adds (target : Path) (t : FileTree) :
    FoldersAdded (fun _ => True) t ((prepare target).treeAfter t) := by
  unfold prepare
  cases target.parentComponents? with
  | none => exact FoldersAdded.refl _ t
  | some outer => exact createFolders_adds _ t

/-! ## Where files appear -/

/-- A file that copying leaves was there before or stands where the target leads. -/
theorem copyFile_puts {l : Location} {content : ByteArray} {modified : Int}
    (h : ((copyFile source target).treeAfter t).get? l = some (.file content modified)) :
    t.get? l = some (.file content modified) ∨
      ∃ entry, t.locate true target = .ok ⟨l, entry⟩ := by
  rcases copyFile_cases source target t with ⟨hsame, -⟩ | ⟨k, entry, hplace, -, -, hput, -⟩
  · exact Or.inl (hsame ▸ h)
  · by_cases hl : l = k
    · exact Or.inr ⟨entry, hl ▸ hplace⟩
    · exact Or.inl (hput.get?_of_ne l hl ▸ h)

theorem runOn_copyThenRemove (source target : Path) (t : FileTree) :
    (copyThenRemove source target).runOn t =
      match (copyFile source target).runOn t with
      | (.ok _, t') => (.ok (), (removeFile source).treeAfter t')
      | (.error e, t') => (.error e, t') := by
  rw [copyThenRemove, runOn_bind]
  rcases (copyFile source target).runOn t with ⟨e | _, t'⟩
  · rfl
  · simp only [runOn_tryCatch, treeAfter]
    rcases (removeFile source).runOn t' with ⟨e | _, t''⟩ <;> rfl

/-- The same for a source that is removed after it was copied. -/
theorem copyThenRemove_puts {l : Location} {content : ByteArray} {modified : Int}
    (h : ((copyThenRemove source target).treeAfter t).get? l = some (.file content modified)) :
    t.get? l = some (.file content modified) ∨
      ∃ entry, t.locate true target = .ok ⟨l, entry⟩ := by
  rw [treeAfter, runOn_copyThenRemove] at h
  rcases hcopy : (copyFile source target).runOn t with ⟨e | _, t'⟩
  all_goals
    simp only [hcopy] at h
    have hcopied := @copyFile_puts source target t l content modified
    rw [treeAfter_of_runOn hcopy] at hcopied
    refine hcopied ?_
  · exact h
  · rcases removeFile_cases source t' with ⟨e, hremove⟩ | ⟨k, e, -, -, hremove⟩
    · rwa [treeAfter_of_runOn hremove] at h
    · rw [treeAfter_of_runOn hremove] at h
      exact get?_of_get?_erase h (by simp)

/-- A file that renaming leaves was there before or stands where the target leads, or below. -/
theorem rename_puts {l : Location} {content : ByteArray} {modified : Int}
    (h : ((rename source target).treeAfter t).get? l = some (.file content modified)) :
    t.get? l = some (.file content modified) ∨
      ∃ place, t.placeOf false target = .ok place ∧ place.location <+: l := by
  rcases rename_cases source target t with ⟨e, hrun⟩ |
    ⟨origin, goal, moved, horigin, hgoal, ⟨hrun, -⟩ | ⟨hrun, -, hoff⟩⟩
  all_goals rw [treeAfter_of_runOn hrun] at h
  · exact Or.inl h
  · exact Or.inl h
  · by_cases hpre : goal.location <+: l
    · exact Or.inr ⟨goal, hgoal, hpre⟩
    · have hroot : origin ≠ [] := by
        rintro rfl
        obtain rfl : moved = .folder := Option.some.inj (entry_of_placeOf horigin)
        exact hoff rfl List.nil_prefix
      rw [get?_relocate_outside hroot hpre] at h
      split_ifs at h
      exact Or.inl h

/-- A renaming that has failed has changed nothing. -/
theorem eq_of_rename_error {e : FileError} {t' : FileTree}
    (h : (rename source target).runOn t = (.error e, t')) : t' = t := by
  rcases rename_cases source target t with ⟨e', hrun⟩ | ⟨_, _, _, -, -, ⟨hrun, -⟩ | ⟨hrun, -⟩⟩
  all_goals rw [h] at hrun
  · exact congrArg Prod.snd hrun
  · simp at hrun
  · simp at hrun

/-- A file that a delivery leaves was there before or stands where the target leads, or below. -/
theorem deliver_puts {l : Location} {content : ByteArray} {modified : Int}
    (h : ((deliver mode source target).treeAfter t).get? l = some (.file content modified)) :
    t.get? l = some (.file content modified) ∨
      ∃ b place, t.placeOf b target = .ok place ∧ place.location <+: l := by
  have hcopied {entry : Option Entry} (hplace : t.locate true target = .ok ⟨l, entry⟩) :
      ∃ b place, t.placeOf b target = .ok place ∧ place.location <+: l :=
    ⟨_, _, hplace, List.prefix_refl _⟩
  cases mode with
  | copy =>
    rcases copyFile_puts h with hold | ⟨_, hplace⟩
    · exact Or.inl hold
    · exact Or.inr (hcopied hplace)
  | move =>
    rw [treeAfter, deliver, runOn_tryCatch] at h
    rcases hrename : (rename source target).runOn t with ⟨e | _, t'⟩
    all_goals simp only [hrename] at h
    · obtain rfl := eq_of_rename_error hrename
      rcases copyThenRemove_puts h with hold | ⟨_, hplace⟩
      · exact Or.inl hold
      · exact Or.inr (hcopied hplace)
    · rw [← treeAfter_of_runOn hrename] at h
      exact (rename_puts h).imp_right (Exists.intro _)

/-- A file that a transfer leaves was there before, or it stands where the target leads once its
folders are created, or below. -/
theorem run_puts {l : Location} {content : ByteArray} {modified : Int}
    (h : ((run mode source target).treeAfter t).get? l = some (.file content modified)) :
    t.get? l = some (.file content modified) ∨
      ∃ b place, ((prepare target).treeAfter t).placeOf b target = .ok place ∧
        place.location <+: l := by
  have hadded := prepare_adds target t
  rw [treeAfter, runOn_run] at h
  rcases hprepare : (prepare target).runOn t with ⟨e | _, t'⟩
  all_goals
    simp only [hprepare] at h
    rw [treeAfter_of_runOn hprepare] at hadded ⊢
  · exact Or.inl (hadded.get?_of_file h)
  · exact (deliver_puts h).imp_left hadded.get?_of_file

/-! ## Vacant targets -/

/-- The target can only mean a file that is not there: it ends in a name, and it never goes up. -/
structure Vacant (t : FileTree) (target : Path) : Prop where
  free : t.isThere target = false
  descends : Path.Component.parent ∉ target.components
  ends : ∃ cs s, target.components = cs ++ [.name s]
  demands : target.demandsFolder = false

/-- Where names are added behind a way, another location is meant. -/
theorem walk_append_ne {l : Location} {ds es : List Path.Component} (hes : es ≠ [])
    (hinner : ∀ c ∈ es, c.IsInner) (hup : Path.Component.parent ∉ es) :
    Path.walk l (ds ++ es) ≠ Path.walk l ds := by
  obtain ⟨names, rfl⟩ := Path.exists_names_of_inner hinner hup
  rw [Path.walk_append, Path.walk_names]
  simpa using hes

/-- The folders that are created for a vacant target leave it vacant: wherever the target leads, it
is the same location as before, and nothing is there. -/
theorem Vacant.placeOf_prepare (h : Vacant t target) (htree : t.WellFormed) (hlinks : t.LinkFree)
    {b : Bool} {place : Place}
    (hplace : ((prepare target).treeAfter t).placeOf b target = .ok place) :
    t.get? (t.locationOf target) = none ∧ place = ⟨t.locationOf target, none⟩ := by
  obtain ⟨cs, s, hcomponents⟩ := h.ends
  have hcanonical : Path.Canonical (cs ++ [.name s]) :=
    hcomponents ▸ Path.canonical_components target
  have hup := h.descends
  rw [hcomponents] at hup
  have hadded : FoldersAdded (fun l => ∃ ds, ds <+: cs ∧ l = Path.walk t.working ds) t
      ((prepare target).treeAfter t) := by
    have hadded := createFolders_adds_prefixes hlinks (Path.ofComponents cs)
    rw [Path.components_ofComponents hcanonical.of_append] at hadded
    rwa [prepare, Path.parentComponents?_of_components hcomponents]
  have hnone : t.get? (t.locationOf target) = none := by
    have hlocate : ((prepare target).treeAfter t).locate b target = .ok place := by
      rwa [locate, h.demands, Bool.or_false]
    exact get?_locationOf_of_not_isThere htree hlinks h.descends h.demands
      (hadded.linkFree hlinks) hlocate h.free
  refine ⟨hnone, ?_⟩
  rw [placeOf_eq (hadded.linkFree hlinks) hplace, locationOf_congr hadded.working]
  rcases hadded.get? (t.locationOf target) with hsame | ⟨⟨ds, ⟨es, rfl⟩, hl⟩, -, -⟩
  · rw [hsame, hnone]
  · -- A folder that is created is not the last name, and the working folder is there already.
    exfalso
    cases ds with
    | nil =>
      rw [hl] at hnone
      simp [Path.walk, htree.working] at hnone
    | cons d ds =>
      rw [locationOf, hcomponents, List.append_assoc] at hl
      rw [List.append_assoc] at hup hcanonical
      refine walk_append_ne (by simp) (fun c hc => ?_) (fun hc => ?_) hl
      · exact hcanonical.2 c (List.mem_append_right _ hc)
      · exact hup (List.mem_append_right _ hc)

/-- So the target is still vacant when its folders are there. -/
theorem Vacant.isThere_prepare (h : Vacant t target) (htree : t.WellFormed) (hlinks : t.LinkFree) :
    ((prepare target).treeAfter t).isThere target = false := by
  rw [isThere, Option.isSome_eq_false_iff, Option.isNone_iff_eq_none]
  by_contra hthere
  obtain ⟨⟨l, e⟩, hentry⟩ := Option.ne_none_iff_exists'.1 hthere
  have hplace := (h.placeOf_prepare htree hlinks (entry?_eq_some_iff.1 hentry).1).2
  simp at hplace

variable {S L : Location} {content : ByteArray} {modified : Int}

/-- A file where a vacant target led before is found there under its path. -/
theorem Vacant.entry?_of_leads {t₁ t' : FileTree} {b : Bool} (h : Vacant t target)
    (hlinks₁ : t₁.LinkFree) (hlinks' : t'.LinkFree) (hworking : t'.working = t₁.working)
    (hfolders : ∀ l, t₁.get? l = some .folder → t'.get? l = some .folder)
    (leads : t₁.placeOf b target = .ok ⟨L, none⟩)
    (hfile : ∃ modified, t'.get? L = some (.file content modified)) :
    ∃ modified, t'.entry? target = some (L, .file content modified) := by
  obtain ⟨modified', hfile⟩ := hfile
  obtain rfl : L = t₁.locationOf target := congrArg Place.location (placeOf_eq hlinks₁ leads)
  refine ⟨modified', entry?_eq_some_iff.2 ⟨?_, by simp [h.demands]⟩⟩
  rw [locate, placeOf_mono hlinks₁ hlinks' hworking hfolders leads, hfile]

/-! ## Delivering to a vacant target -/

/-- How a delivery to a target that leads to nothing can go. -/
inductive Outcome (mode : TransferMode) (target : Path) (S L : Location) (content : ByteArray)
    (t : FileTree) : Except FileError Unit × FileTree → Prop where
  | failed (e : FileError) : Outcome mode target S L content t (.error e, t)
  | put (r : Except FileError Unit) (t' : FileTree) {b : Bool}
      (leads : t.placeOf b target = .ok ⟨L, none⟩) (change : FilePut L t t')
      (complete : r = .ok () → ∃ modified, t'.get? L = some (.file content modified)) :
      Outcome mode target S L content t (r, t')
  | moved (t' : FileTree) {b : Bool} (leads : t.placeOf b target = .ok ⟨L, none⟩)
      (isMove : mode = .move) (change : FileMoved S L content t t') :
      Outcome mode target S L content t (.ok (), t')

theorem copyFile_outcome
    (hsource : t.entry? source = some (S, .file content modified))
    (hplace : ∀ b place, t.placeOf b target = .ok place → place = ⟨L, none⟩) :
    Outcome .copy target S L content t ((copyFile source target).runOn t) := by
  have hS := get?_of_entry_eq hsource
  rcases hrun : (copyFile source target).runOn t with ⟨r, t'⟩
  have hafter : (copyFile source target).treeAfter t = t' := treeAfter_of_runOn hrun
  have hsucceeds (hr : r = .ok ()) : (copyFile source target).succeeds t = true := by
    simp [FileAction.succeeds, hrun, hr]
  rcases copyFile_cases source target t with ⟨hsame, hok⟩ | ⟨l, entry, hlocate, -, -, hput, hcopied⟩
  · rw [hafter] at hsame
    cases r with
    | error e =>
      rw [hsame]
      exact .failed e
    | ok u =>
      obtain ⟨l, hlocate⟩ := hok (hsucceeds rfl)
      have := hplace _ _ hlocate
      simp at this
  · obtain ⟨rfl, rfl⟩ : l = L ∧ entry = none := by simpa using hplace _ _ hlocate
    have hnone : t.get? l = none := (entry_of_placeOf hlocate).symm
    rw [hafter] at hput hcopied
    refine .put r t' hlocate hput fun hr => ?_
    refine hcopied (hsucceeds hr) S content modified hsource ?_
    rintro rfl
    simp [hS] at hnone

theorem copyThenRemove_outcome (hlinks : t.LinkFree)
    (hsource : t.entry? source = some (S, .file content modified))
    (hplace : ∀ b place, t.placeOf b target = .ok place → place = ⟨L, none⟩) :
    Outcome .move target S L content t ((copyThenRemove source target).runOn t) := by
  have hcopy := copyFile_outcome hsource hplace
  have hS := get?_of_entry_eq hsource
  obtain rfl := location_of_entry_eq hlinks hsource
  rw [runOn_copyThenRemove]
  rcases hrun : (copyFile source target).runOn t with ⟨e | _, t'⟩
  · rw [hrun] at hcopy
    cases hcopy with
    | failed e => exact .failed e
    | put _ _ leads change complete => exact .put _ _ leads change (by simp)
  · rw [hrun] at hcopy
    cases hcopy with
    | moved _ _ isMove _ => simp at isMove
    | put _ _ leads change complete =>
      have hL : t.get? L = none := (entry_of_placeOf leads).symm
      obtain ⟨modified', hfile⟩ := complete rfl
      rcases removeFile_cases source t' with ⟨e, hremove⟩ | ⟨l, e, hplace', -, hremove⟩
      · simp only [treeAfter_of_runOn hremove]
        exact .put _ _ leads change fun _ => ⟨modified', hfile⟩
      · simp only [treeAfter_of_runOn hremove]
        have hne : t.locationOf source ≠ L := by
          rintro heq
          rw [heq, hL] at hS
          simp at hS
        have hnil : t.locationOf source ≠ [] := by
          intro heq
          rw [heq] at hS
          simp at hS
        have hl : l = t.locationOf source := by
          have heq := congrArg Place.location (locate_eq (change.linkFree hlinks) hplace')
          rw [locationOf_congr change.working] at heq
          exact heq
        rw [hl]
        exact .moved _ leads rfl (change.fileMoved_erase hfile hnil hne)

/-- Without links, a delivery of a file to where nothing is has one of the outcomes. -/
theorem deliver_outcome (htree : t.WellFormed) (hlinks : t.LinkFree)
    (hsource : t.entry? source = some (S, .file content modified))
    (hplace : ∀ b place, t.placeOf b target = .ok place → place = ⟨L, none⟩) :
    Outcome mode target S L content t ((deliver mode source target).runOn t) := by
  cases mode with
  | copy => exact copyFile_outcome hsource hplace
  | move =>
    have hS := get?_of_entry_eq hsource
    obtain rfl := location_of_entry_eq hlinks hsource
    rw [deliver, runOn_tryCatch]
    rcases rename_cases source target t with ⟨e, hrun⟩ |
      ⟨origin, goal, moved, horigin, hgoal, hsame | ⟨hrun, hne, -⟩⟩
    · rw [hrun]
      exact copyThenRemove_outcome hlinks hsource hplace
    all_goals
      obtain rfl := hplace _ _ hgoal
      have hL : t.get? L = none := (entry_of_placeOf hgoal).symm
      obtain rfl : origin = t.locationOf source :=
        congrArg Place.location (placeOf_eq hlinks horigin)
    · rw [hsame.2, hL] at hS
      simp at hS
    · rw [hrun]
      exact .moved _ hgoal rfl (fileMoved_relocate htree hS hL)

/-! ## Whole transfers -/

/-- The second tree is the first one with folders added, with a file added at one location, and with
the file at another location gone. -/
structure Delivered (S L : Location) (gone : Prop) (t t' : FileTree) : Prop where
  working : t'.working = t.working
  linkFree : t'.LinkFree
  wellFormed : t'.WellFormed
  get? : ∀ l, t'.get? l = t.get? l ∨
    t.get? l = none ∧ (t'.get? l = some .folder ∨
      l = L ∧ ∃ content modified, t'.get? l = some (.file content modified)) ∨
    l = S ∧ gone ∧ t'.get? l = none

namespace Delivered

variable {gone : Prop} {t₁ t' : FileTree}

/-- Folders stay where a file is taken away. -/
theorem get?_folder (h : Delivered S L gone t t') (hS : t.get? S = some (.file content modified))
    {l : Location} (hl : t.get? l = some .folder) : t'.get? l = some .folder := by
  rcases h.get? l with hsame | ⟨hnone, -⟩ | ⟨rfl, -⟩
  · rw [hsame, hl]
  · simp [hnone] at hl
  · simp [hS] at hl

/-- Files stay, but for the one that is gone. -/
theorem get?_file (h : Delivered S L gone t t') {l : Location} {content : ByteArray}
    {modified : Int} (hl : t.get? l = some (.file content modified)) (hgone : gone → l ≠ S) :
    t'.get? l = some (.file content modified) := by
  rcases h.get? l with hsame | ⟨hnone, -⟩ | ⟨rfl, hgone', -⟩
  · rw [hsame, hl]
  · simp [hnone] at hl
  · exact absurd rfl (hgone hgone')

/-- Adding folders is the first half of it. -/
theorem of_added {P : Location → Prop} (hadded : FoldersAdded P t t₁) (htree : t.WellFormed)
    (hlinks : t.LinkFree) : Delivered S L gone t t₁ := by
  refine ⟨hadded.working, hadded.linkFree hlinks, hadded.wellFormed htree, fun l => ?_⟩
  rcases hadded.get? l with hsame | ⟨-, hnone, hfolder⟩
  · exact Or.inl hsame
  · exact Or.inr (Or.inl ⟨hnone, Or.inl hfolder⟩)

/-- The second half may put a file where nothing was. -/
theorem of_put (h : Delivered S L gone t t₁) (hL : t.get? L = none)
    {b : Bool} (leads : t₁.placeOf b target = .ok ⟨L, none⟩) (change : FilePut L t₁ t') :
    Delivered S L gone t t' := by
  have hL₁ : t₁.get? L = none := (entry_of_placeOf leads).symm
  refine ⟨change.working.trans h.working, change.linkFree h.linkFree,
    change.wellFormed h.wellFormed (by simp [hL₁]) (parent_of_placeOf h.wellFormed leads),
    fun l => ?_⟩
  by_cases hl : l = L
  · rw [hl]
    exact Or.inr (Or.inl ⟨hL, Or.inr ⟨rfl, change.file⟩⟩)
  · rw [change.get?_of_ne l hl]
    exact h.get? l

/-- Or it may move the file there. -/
theorem of_moved (h : Delivered S L gone t t₁) (hgone : gone) (hL : t.get? L = none)
    (hS₁ : t₁.get? S = some (.file content modified)) {b : Bool}
    (leads : t₁.placeOf b target = .ok ⟨L, none⟩) (change : FileMoved S L content t₁ t') :
    Delivered S L gone t t' := by
  have hL₁ : t₁.get? L = none := (entry_of_placeOf leads).symm
  refine ⟨change.working.trans h.working, change.linkFree h.linkFree,
    change.wellFormed h.wellFormed hS₁ hL₁ (parent_of_placeOf h.wellFormed leads), fun l => ?_⟩
  by_cases hl : l = L
  · obtain ⟨modified', hfile⟩ := change.file
    rw [hl]
    exact Or.inr (Or.inl ⟨hL, Or.inr ⟨rfl, _, _, hfile⟩⟩)
  · by_cases hlS : l = S
    · rw [hlS]
      exact Or.inr (Or.inr ⟨rfl, hgone, change.get?_source⟩)
    · rw [change.get?_of_ne l hlS hl]
      exact h.get? l

end Delivered

/-- Transferring a file to a vacant target changes nothing else, takes the source away only when it
moves it, and leaves at the target what was at the source. -/
theorem run_delivers (htree : t.WellFormed) (hlinks : t.LinkFree)
    (hsource : t.entry? source = some (S, .file content modified)) (hvacant : Vacant t target)
    {r : Except FileError Unit} {t' : FileTree}
    (hrun : (run mode source target).runOn t = (r, t')) :
    Delivered S (t.locationOf target) (mode = .move ∧ r = .ok ()) t t' ∧
      (r = .ok () → t.get? (t.locationOf target) = none ∧
        ∃ modified, t'.entry? target = some (t.locationOf target, .file content modified)) := by
  have hadded := prepare_adds target t
  have hplaces := fun b place => @Vacant.placeOf_prepare target t hvacant htree hlinks b place
  rw [runOn_run] at hrun
  rcases hprepare : (prepare target).runOn t with ⟨e | _, t₁⟩
  all_goals
    simp only [hprepare] at hrun
    rw [treeAfter_of_runOn hprepare] at hadded hplaces
    have hfolders (gone : Prop) : Delivered S (t.locationOf target) gone t t₁ :=
      .of_added hadded htree hlinks
  · obtain ⟨rfl, rfl⟩ := Prod.mk.inj hrun
    exact ⟨hfolders _, by simp⟩
  · have hlinks₁ := hadded.linkFree hlinks
    have hS := get?_of_entry_eq hsource
    have hS₁ : t₁.get? S = some (.file content modified) := by
      rw [hadded.get?_of_isSome (by simp [hS]), hS]
    have hsource₁ : t₁.entry? source = some (S, .file content modified) :=
      entry?_mono hlinks hlinks₁ hadded.working
        (fun l hl => by rw [hadded.get?_of_isSome (by simp [hl]), hl]) hsource hS₁
    have houtcome : Outcome mode target S (t.locationOf target) content t₁
        ((deliver mode source target).runOn t₁) :=
      deliver_outcome (hadded.wellFormed htree) hlinks₁ hsource₁ fun b place hplace =>
        (hplaces b place hplace).2
    rw [hrun] at houtcome
    cases houtcome with
    | failed e => exact ⟨hfolders _, by simp⟩
    | put _ _ leads change complete =>
      have hL : t.get? (t.locationOf target) = none := (hplaces _ _ leads).1
      have hL₁ : t₁.get? (t.locationOf target) = none := (entry_of_placeOf leads).symm
      refine ⟨(hfolders _).of_put hL leads change, fun hr => ⟨hL, ?_⟩⟩
      exact hvacant.entry?_of_leads hlinks₁ (change.linkFree hlinks₁) change.working
        (fun l => change.get?_folder (by simp [hL₁])) leads (complete hr)
    | moved _ leads isMove change =>
      have hL : t.get? (t.locationOf target) = none := (hplaces _ _ leads).1
      have hL₁ : t₁.get? (t.locationOf target) = none := (entry_of_placeOf leads).symm
      refine ⟨(hfolders _).of_moved ⟨isMove, rfl⟩ hL hS₁ leads change, fun _ => ⟨hL, ?_⟩⟩
      exact hvacant.entry?_of_leads hlinks₁ (change.linkFree hlinks₁) change.working
        (fun l => change.get?_folder hS₁ hL₁) leads change.file

end Transfer

end PhotoIntake
