import PhotoIntake.Proofs.FileTree.Descent
import PhotoIntake.Source.Walk

/-!
# The files that a walk meets

A walk meets the files of its source, all of them and nothing else.  What that means is said by what
stands in the tree alone, so a source that is kept in another tree has the same files there.

* `mem_ofSource_iff`: a walk meets a path as that of a file if it is a `SourceFile`.
* `SourceKept.sourceFile`: a source that is kept in another tree has the same files there.
* `SourceKept.ofPath_eq`: they are recognised by the same.
-/

namespace PhotoIntake

open FileTree

namespace Walk

variable {t t' : FileTree} {root p : Path} {l : Location} {withSubfolders : Bool}
  {content : ByteArray} {modified : Int}

/-- A walk of the source goes into the folder at the location. -/
def EntersAt (t : FileTree) (root : Path) (l : Location) : Prop :=
  t.locate false root = .ok ⟨l, some .folder⟩ ∨
    (∃ link target, t.locate false root = .ok ⟨link, some (.link target)⟩) ∧
      t.entry? root = some (l, .folder)

/-- The folder is what the source means. -/
theorem EntersAt.locate_eq (h : EntersAt t root l) :
    t.locate true root = .ok ⟨l, some .folder⟩ := by
  rcases h with h | ⟨-, h⟩
  · exact locate_of_not_link h (by simp)
  · exact (entry?_eq_some_iff.1 h).1

/-- The path is that of a file in the source: the source itself, or a file below its folder.
Without subfolders the file is right in that folder. -/
inductive SourceFile (t : FileTree) (root : Path) (withSubfolders : Bool) (content : ByteArray)
    (modified : Int) : Path → Prop
  | itself {l : Location} (h : t.locate false root = .ok ⟨l, some (.file content modified)⟩)
    (hdemands : root.demandsFolder = false) :
    SourceFile t root withSubfolders content modified root
  | below {l : Location} {names : List String} (henters : EntersAt t root l)
    (hbelow : FileBelow t content modified l names)
    (hdepth : withSubfolders = false → names.length ≤ 1) :
    SourceFile t root withSubfolders content modified (root.descend names)

/-! ## In a folder -/

theorem mem_namesIn {s : String} : s ∈ t.namesIn l ↔ (t.get? (l ++ [s])).isSome = true := by
  unfold namesIn below
  rw [List.mem_filterMap]
  constructor
  · rintro ⟨⟨k, e⟩, hentry, hlast⟩
    simp only [List.mem_filter, Bool.and_eq_true, List.isPrefixOf_iff_prefix] at hentry
    obtain ⟨hmem, ⟨rest, rfl⟩, -⟩ := hentry
    split_ifs at hlast with hlength
    obtain ⟨s', rfl⟩ : ∃ s', rest = [s'] := List.length_eq_one_iff.1 (by simpa using hlength)
    obtain rfl : s' = s := by simpa using hlast
    exact isSome_get?_of_mem_entries hmem
  · intro hsome
    obtain ⟨e, he⟩ := Option.isSome_iff_exists.1 hsome
    exact ⟨(l ++ [s], e), by simpa using mem_entries_of_get? (by simp) he, by simp⟩

/-- A walk in a folder meets a file where names lead to one. -/
theorem mem_inFolder_iff {depth : Nat} :
    (∃ name, some ⟨p, name, true⟩ ∈ inFolder t depth l root) ↔
      ∃ content modified names, FileBelow t content modified l names ∧ names.length ≤ depth ∧
        p = root.descend names := by
  induction depth generalizing l root with
  | zero =>
    constructor
    · rintro ⟨name, hname⟩
      simp [inFolder] at hname
    · rintro ⟨content, modified, names, hbelow, hlength, -⟩
      exact absurd (List.length_eq_zero_iff.1 (Nat.le_zero.1 hlength)) hbelow.ne_nil
  | succ depth ih =>
    simp only [inFolder, List.mem_flatMap, List.mem_mergeSort, mem_namesIn]
    constructor
    · rintro ⟨name, s, hsome, hvisit⟩
      split at hvisit
      · rename_i hget
        obtain ⟨content, modified, names, hbelow, hlength, rfl⟩ :=
          ih.1 ⟨name, (List.mem_cons.1 hvisit).resolve_left (by simp)⟩
        exact ⟨content, modified, s :: names, .inside hget hbelow, by simpa using hlength, rfl⟩
      · rename_i content modified hget
        obtain ⟨rfl, -⟩ : p = root.join ⟨s⟩ ∧ name = s := by simpa using hvisit
        exact ⟨content, modified, [s], .file hget, by simp, rfl⟩
      · simp at hvisit
      · simp at hvisit
    · rintro ⟨content, modified, names, hbelow, hlength, rfl⟩
      cases hbelow with
      | @file _ s hget => exact ⟨s, s, by simp [hget], by simp [hget, Path.descend]⟩
      | @inside _ s names hget hrest =>
        obtain ⟨name, hname⟩ := ih.2 ⟨content, modified, names, hrest, by simpa using hlength, rfl⟩
        refine ⟨name, s, by simp [hget], ?_⟩
        simp only [hget]
        exact List.mem_cons_of_mem _ hname

/-! ## In a source -/

/-- A walk that goes into a folder meets a file in the source where it meets one in that folder. -/
theorem EntersAt.mem_ofSource_iff (henters : EntersAt t root l) :
    (∃ name, some ⟨p, name, true⟩ ∈ ofSource t root withSubfolders) ↔
      ∃ content modified names, FileBelow t content modified l names ∧
        (withSubfolders = false → names.length ≤ 1) ∧ p = root.descend names := by
  have hwalk : ∃ first, first.isFile = false ∧ ofSource t root withSubfolders =
      some first :: inFolder t (if withSubfolders then t.entries.length else 1) l root := by
    refine ⟨⟨root, root.fileName?.getD root.text, false⟩, rfl, ?_⟩
    unfold ofSource toDepth
    rcases henters with hfolder | ⟨⟨link, target, hlink⟩, hfolder⟩
    · simp only [hfolder]
    · simp only [hlink, hfolder]
  obtain ⟨first, hfirst, hwalk⟩ := hwalk
  have hmem (name : String) : some ⟨p, name, true⟩ ∈ ofSource t root withSubfolders ↔
      some ⟨p, name, true⟩ ∈
        inFolder t (if withSubfolders then t.entries.length else 1) l root := by
    rw [hwalk, List.mem_cons, or_iff_right]
    rintro heq
    obtain rfl := Option.some.inj heq
    simp at hfirst
  simp only [hmem, mem_inFolder_iff]
  refine exists_congr fun content => exists_congr fun modified => exists_congr fun names =>
    and_congr_right fun hbelow => and_congr_left fun _ => ?_
  cases withSubfolders with
  | true => simpa using hbelow.length_le
  | false => simp

/-- A walk of a source meets the files of the source. -/
theorem mem_ofSource_iff :
    (∃ name, some ⟨p, name, true⟩ ∈ ofSource t root withSubfolders) ↔
      ∃ content modified, SourceFile t root withSubfolders content modified p := by
  constructor
  · rintro ⟨name, hname⟩
    have hinside {l : Location} (henters : EntersAt t root l) :
        ∃ content modified, SourceFile t root withSubfolders content modified p := by
      obtain ⟨content, modified, names, hbelow, hdepth, rfl⟩ :=
        henters.mem_ofSource_iff.1 ⟨name, hname⟩
      exact ⟨content, modified, .below henters hbelow hdepth⟩
    have hwalk := hname
    unfold ofSource toDepth at hwalk
    simp only at hwalk
    split at hwalk
    · rename_i hfolder
      exact hinside (Or.inl hfolder)
    · rename_i content modified hfile
      split_ifs at hwalk with hdemands
      · simp at hwalk
      · obtain ⟨rfl, -⟩ : p = root ∧ _ := by simpa using hwalk
        exact ⟨content, modified, .itself hfile (by simpa using hdemands)⟩
    · rename_i link target hlink
      split at hwalk
      · rename_i l hfolder
        exact hinside (Or.inr ⟨⟨link, target, hlink⟩, hfolder⟩)
      · simp at hwalk
      · simp at hwalk
    · simp at hwalk
    · simp at hwalk
  · rintro ⟨content, modified, hfile⟩
    cases hfile with
    | itself hfile hdemands => simp [ofSource, toDepth, hfile, hdemands]
    | below henters hbelow hdepth =>
      exact henters.mem_ofSource_iff.2 ⟨content, modified, _, hbelow, hdepth, rfl⟩

/-- The images of a source are the files in it that have the extension of an image. -/
theorem mem_images_iff :
    (∃ v ∈ images (ofSource t root withSubfolders), v.path = p) ↔
      isImage p = true ∧
        ∃ content modified, SourceFile t root withSubfolders content modified p := by
  rw [← mem_ofSource_iff]
  simp only [images, List.mem_filter, List.mem_filterMap, id_eq, exists_eq_right, Bool.and_eq_true]
  constructor
  · rintro ⟨⟨path, name, isFile⟩, ⟨hmem, rfl, himage⟩, rfl⟩
    exact ⟨himage, name, hmem⟩
  · rintro ⟨himage, name, hmem⟩
    exact ⟨⟨p, name, true⟩, ⟨hmem, rfl, himage⟩, rfl⟩

/-! ## Sources that are kept -/

/-- The source is the same in two trees: its path means the same, and what stands there and below
is the same. -/
structure SourceKept (t t' : FileTree) (root : Path) : Prop where
  locate : ∀ followLast, t'.locate followLast root = t.locate followLast root
  get? : ∀ place, t.locate true root = .ok place → ∀ l, place.location <+: l → t'.get? l = t.get? l

namespace SourceKept

theorem refl (t : FileTree) (root : Path) : SourceKept t t root :=
  ⟨fun _ => rfl, fun _ _ _ _ => rfl⟩

theorem symm (h : SourceKept t t' root) : SourceKept t' t root where
  locate followLast := (h.locate followLast).symm
  get? place hplace l hl := (h.get? place ((h.locate true).symm.trans hplace) l hl).symm

theorem entersAt (h : SourceKept t t' root) (henters : EntersAt t root l) :
    EntersAt t' root l := by
  unfold EntersAt at henters ⊢
  rwa [ entry?, h.locate, h.locate]

theorem fileBelow (h : SourceKept t t' root) (henters : EntersAt t root l) {names : List String}
    (hbelow : FileBelow t content modified l names) : FileBelow t' content modified l names :=
  hbelow.congr fun l hl => h.get? _ henters.locate_eq l hl

/-- A source that is kept has its files. -/
theorem sourceFile (h : SourceKept t t' root)
    (hfile : SourceFile t root withSubfolders content modified p) :
    SourceFile t' root withSubfolders content modified p := by
  cases hfile with
  | itself hfile hdemands => exact .itself ((h.locate false).trans hfile) hdemands
  | below henters hbelow hdepth =>
    exact .below (h.entersAt henters) (h.fileBelow henters hbelow) hdepth

/-- The files of a source are recognised by what they are as long as the source is kept. -/
theorem ofPath_eq (h : SourceKept t t' root) (hnames : t.NamesValid)
    (hfile : SourceFile t root withSubfolders content modified p) (hfollow : Followable p) :
    FileIdentity.ofPath t' p =
      .ok ⟨p.fileName?.getD "", content.size, FileIdentity.seconds modified⟩ := by
  cases hfile with
  | itself hfile hdemands =>
    exact ofPath_of_locate (locate_of_not_link ((h.locate false).trans hfile) (by simp)) hdemands
  | @below l names henters hbelow =>
    have hvalid : ∀ s ∈ names, Path.IsName s ∧ s.utf8ByteSize ≤ maxNameLength := fun s hs =>
      hnames _ (by rw [hbelow.get?_eq]; rfl) s (List.mem_append_right l hs)
    exact ofPath_of_locate
      (locate_descend (h.entersAt henters).locate_eq (h.fileBelow henters hbelow) hvalid hfollow)
      (demandsFolder_descend hbelow.ne_nil fun s hs => (hvalid s hs).1)

end SourceKept

end Walk

end PhotoIntake
