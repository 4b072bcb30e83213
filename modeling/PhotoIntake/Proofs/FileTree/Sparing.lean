import PhotoIntake.Proofs.FileTree.ReadBack
import PhotoIntake.Proofs.Source.Walking

/-!
# Parts of a tree that are spared

What is written along a path that never comes upon a location changes nothing there and below.  This
is said of trees without links, where the names on a path tell where it leads.

* `StaysOut`: the way of a path never comes upon a location or below it.
* `Spared`: what stands at a location and below is the same in another tree, which has the folders
  of the first one.
* `spared_createFolders`, `spared_writeFile`, `spared_putFile` and `spared_copyFile`: so it is after
  these actions, whether they fail or not.
* `Spared.sourceKept`: a source that stands at a spared location is kept.
-/

namespace PhotoIntake

namespace FileTree

open PhotoIntake.Path (Component)

variable {S l : Location} {t t' t'' : FileTree} {p : Path}

/-! ## Ways -/

/-- The way of the path never comes upon the location or below it. -/
def StaysOut (S : Location) (t : FileTree) (p : Path) : Prop :=
  ∀ cs, cs <+: p.components → ¬ S <+: Path.walk t.working cs

theorem StaysOut.congr (h : StaysOut S t p) (hworking : t'.working = t.working) :
    StaysOut S t' p := by
  unfold StaysOut
  rwa [hworking]

/-- The path itself ends elsewhere. -/
theorem StaysOut.not_prefix (h : StaysOut S t p) : ¬ S <+: t.locationOf p :=
  h p.components (List.prefix_refl _)

/-- The way to the folder around a path is a part of its own. -/
theorem StaysOut.outer (h : StaysOut S t p) {outer : List Component}
    (houter : p.parentComponents? = some outer) : StaysOut S t (Path.ofComponents outer) := by
  obtain ⟨c, hc⟩ := Path.exists_components_of_parentComponents? houter
  intro cs hcs
  rw [Path.components_ofComponents (Path.canonical_of_parentComponents? houter)] at hcs
  exact h cs (hcs.trans (hc ▸ List.prefix_append outer [c]))

/-- A path that goes on by names from one that stays out stays out too, unless the location is below
the end of the first one. -/
theorem StaysOut.descend {q : Path} (h : StaysOut S t p) (hbelow : ¬ t.locationOf p <+: S)
    {names : List String} (hq : q.components = p.components ++ names.map .name) :
    StaysOut S t q := by
  intro cs hcs hprefix
  rw [hq] at hcs
  rcases List.prefix_or_prefix_of_prefix hcs (List.prefix_append p.components _) with
    hfirst | ⟨more, rfl⟩
  · exact h cs hfirst hprefix
  · have hmore : more = (names.take more.length).map .name := by
      rw [List.map_take]
      exact List.prefix_iff_eq_take.1 ((List.prefix_append_right_inj _).1 hcs)
    rw [Path.walk_append, hmore, Path.walk_names] at hprefix
    rcases List.prefix_or_prefix_of_prefix hprefix (List.prefix_append (t.locationOf p) _) with
      habove | hunder
    · exact h.not_prefix habove
    · exact hbelow hunder

/-! ## Spared locations -/

/-- What stands at the location and below is the same in both trees, the second one has all folders
of the first one, and it has no links. -/
structure Spared (S : Location) (t t' : FileTree) : Prop where
  working : t'.working = t.working
  linkFree : t'.LinkFree
  folders : ∀ l, t.get? l = some .folder → t'.get? l = some .folder
  get? : ∀ l, S <+: l → t'.get? l = t.get? l

namespace Spared

theorem refl (S : Location) (hlinks : t.LinkFree) : Spared S t t :=
  ⟨rfl, hlinks, fun _ h => h, fun _ _ => rfl⟩

theorem trans (h : Spared S t t') (h' : Spared S t' t'') : Spared S t t'' where
  working := h'.working.trans h.working
  linkFree := h'.linkFree
  folders l hl := h'.folders l (h.folders l hl)
  get? l hl := (h'.get? l hl).trans (h.get? l hl)

/-- Folders that are added elsewhere spare the location. -/
theorem of_added {P : Location → Prop} (hlinks : t.LinkFree) (hadded : FoldersAdded P t t')
    (hP : ∀ l, P l → ¬ S <+: l) : Spared S t t' where
  working := hadded.working
  linkFree := hadded.linkFree hlinks
  folders l hl := (hadded.get?_of_isSome (by simp [hl])).trans hl
  get? l hl := by
    rcases hadded.get? l with hsame | ⟨hPl, -⟩
    · exact hsame
    · exact absurd hl (hP l hPl)

/-- So does a file that is put elsewhere. -/
theorem of_put (hlinks : t.LinkFree) (hput : FilePut l t t') (hfolder : t.get? l ≠ some .folder)
    (hl : ¬ S <+: l) : Spared S t t' where
  working := hput.working
  linkFree := hput.linkFree hlinks
  folders _ hk := hput.get?_folder hfolder hk
  get? k hk := hput.get?_of_ne k fun heq => hl (heq ▸ hk)

/-- A source that stands at a spared location is kept. -/
theorem sourceKept (hlinks : t.LinkFree) {root : Path} {e : Entry}
    (hroot : t.entry? root = some (S, e)) (h : Spared S t t') : Walk.SourceKept t t' root where
  locate followLast := by
    obtain ⟨hlocate, -⟩ := entry?_eq_some_iff.1 hroot
    have hS := location_of_entry_eq hlinks hroot
    unfold locate
    rw [placeOf_mono hlinks h.linkFree h.working h.folders hlocate,
      placeOf_mono hlinks hlinks rfl (fun _ hl => hl) hlocate, ← hS, h.get? S (List.prefix_refl S)]
  get? place hplace l hl := by
    obtain ⟨hlocate, -⟩ := entry?_eq_some_iff.1 hroot
    obtain rfl : place = ⟨S, some e⟩ := Except.ok.inj (hplace.symm.trans hlocate)
    exact h.get? l hl

end Spared

/-- Where the path can be opened for a file, there is no folder. -/
theorem get?_ne_folder_of_locate {entry : Option Entry}
    (hplace : t.locate true p = .ok ⟨l, entry⟩) (hentry : entry ≠ some .folder) :
    t.get? l ≠ some .folder := by
  rwa [← entry_of_placeOf hplace]

end FileTree

/-! ## Actions -/

namespace FileAction

open FileTree

variable {S : Location} {t : FileTree} {p : Path}

theorem spared_createFolders (hlinks : t.LinkFree) (hout : StaysOut S t p) :
    Spared S t ((createFolders p).treeAfter t) := by
  refine .of_added hlinks (createFolders_adds_prefixes hlinks p) ?_
  rintro l ⟨cs, hcs, rfl⟩
  exact hout cs hcs

theorem spared_writeFile (hlinks : t.LinkFree) (hout : StaysOut S t p) (content : ByteArray) :
    Spared S t ((writeFile p content).treeAfter t) := by
  rw [treeAfter, writeFile, runOn_bind]
  rcases openEmpty_cases p t with ⟨e, hopen⟩ | ⟨l, -, hopen⟩ |
    ⟨l, entry, hplace, -, hentry, hopen⟩
  all_goals simp only [hopen]
  · exact .refl S hlinks
  · have hafter := treeAfter_writeAll_none content t
    rw [treeAfter] at hafter
    rw [hafter]
    exact .refl S hlinks
  · obtain rfl : l = t.locationOf p := congrArg Place.location (locate_eq hlinks hplace)
    rw [runOn_writeAll_some]
    exact .of_put hlinks (filePut_fill (ne_nil_of_opened hplace hentry) _ content)
      (get?_ne_folder_of_locate hplace hentry) hout.not_prefix

theorem spared_copyFile (hlinks : t.LinkFree) (source : Path) (hout : StaysOut S t p) :
    Spared S t ((copyFile source p).treeAfter t) := by
  rcases copyFile_cases source p t with ⟨hsame, -⟩ | ⟨l, entry, hplace, -, hentry, hput, -⟩
  · rw [hsame]
    exact .refl S hlinks
  · obtain rfl : l = t.locationOf p := congrArg Place.location (locate_eq hlinks hplace)
    exact .of_put hlinks hput (get?_ne_folder_of_locate hplace hentry) hout.not_prefix

/-- Creating the folders around a path before the path is used spares what both spare. -/
theorem spared_inFolders {α : Type} {action : FileAction α} (hlinks : t.LinkFree)
    (hout : StaysOut S t p)
    (haction : ∀ u : FileTree, Spared S t u → Spared S u (action.treeAfter u)) :
    Spared S t ((inFolders p action).treeAfter t) := by
  unfold inFolders
  cases houter : p.parentComponents? with
  | none => exact haction t (.refl S hlinks)
  | some outer =>
    have hcreated := spared_createFolders hlinks (hout.outer houter)
    rw [treeAfter] at hcreated
    rw [treeAfter, runOn_bind]
    rcases hrun : (createFolders (Path.ofComponents outer)).runOn t with ⟨e | _, u⟩
    all_goals rw [hrun] at hcreated
    · exact hcreated
    · exact hcreated.trans (haction u hcreated)

theorem spared_putFile (hlinks : t.LinkFree) (hout : StaysOut S t p) (content : ByteArray) :
    Spared S t ((putFile p content).treeAfter t) :=
  spared_inFolders hlinks hout fun _ hu =>
    spared_writeFile hu.linkFree (hout.congr hu.working) content

end FileAction

end PhotoIntake
