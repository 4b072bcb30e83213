import PhotoIntake.Proofs.FileTree.Bypassing

/-!
# A file kept at one place

A program that keeps a file writes it under one path, time and again.  As long as the path leads to
the same location and the folder of the file is there, nothing but the file changes.

* `Leads`: a path leads to a location where a file can be put.
* `putFile_stores`: putting a file there succeeds and changes the file alone, which `Stored`
  describes.
* `SameBut.stored` and `SameBut.stored_first`: two trees that are the same but for the file stay so
  when it is written in one of them.
-/

namespace PhotoIntake

namespace FileTree

open PhotoIntake.Path (Component)

variable {t t' u : FileTree} {p : Path} {l : Location}

/-- The path leads to the location of a file, and the folder of the file is there. -/
structure Leads (t : FileTree) (p : Path) (l : Location) : Prop where
  plain : p.demandsFolder = false
  place : t.placeOf true p = .ok ⟨l, t.get? l⟩
  folder : ∀ outer, p.parentComponents? = some outer →
    outer = [] ∨ t.isFolder (Path.ofComponents outer) = true

/-- A bare name leads to its location if there is neither a folder nor a link. -/
theorem leads_of_name (hplain : p.demandsFolder = false) (hbare : p.parentComponents? = some [])
    (hplace : (t.placeOf true p).map Place.location = .ok l) : t.Leads p l where
  plain := hplain
  place := by
    cases hreached : t.placeOf true p with
    | error e => simp [hreached, Except.map] at hplace
    | ok place =>
      obtain rfl : place.location = l := by simpa [hreached, Except.map] using hplace
      rw [← entry_of_placeOf hreached]
  folder _ houter := Or.inl (Option.some.inj (houter.symm.trans hbare))

/-- The folder around the path, if it is not the working folder, is there. -/
def FolderThere (t : FileTree) (p : Path) : Prop :=
  ∀ outer, p.parentComponents? = some outer →
    outer = [] ∨ t.isFolder (Path.ofComponents outer) = true

/-- A path to a file, or to where one can be put, leads to its location if the folder is there. -/
theorem leads_of_locate {entry : Option Entry} (hplain : p.demandsFolder = false)
    (hplace : t.locate true p = .ok ⟨l, entry⟩)
    (hfile : ∀ e, entry = some e → ∃ content modified, e = .file content modified)
    (hfolder : t.FolderThere p) : t.Leads p l ∧ t.OnlyFile l := by
  rw [locate, Bool.true_or] at hplace
  have hentry : t.get? l = entry := (entry_of_placeOf hplace).symm
  exact ⟨⟨hplain, by rw [hplace, hentry], hfolder⟩, fun e he => hfile e (hentry.symm.trans he)⟩

/-- A path that can be read leads to a file, unless it leads to the full device. -/
theorem exists_leads_of_contentOf {content : ByteArray} (hcontent : t.contentOf p = .ok content)
    (hdevice : content ≠ ⟨#[0]⟩)
    (hfolder : t.FolderThere p) :
    ∃ l, t.Leads p l ∧ t.OnlyFile l := by
  unfold contentOf at hcontent
  split at hcontent
  · simp at hcontent
  · simp at hcontent
  · next l bytes modified hplace =>
    split_ifs at hcontent with hplain
    refine ⟨l, leads_of_locate (by simpa using hplain) hplace (fun e he => ?_) hfolder⟩
    exact ⟨bytes, modified, (Option.some.inj he).symm⟩
  · exact absurd (Except.ok.inj hcontent).symm hdevice
  · simp at hcontent

/-- What the path means is the file at the location. -/
theorem Leads.contentOf_eq (h : t.Leads p l) (hfile : t.OnlyFile l) :
    t.contentOf p = t.contentAt l := by
  rw [contentOf, locate, Bool.true_or, h.place, contentAt]
  cases hget : t.get? l with
  | none => rfl
  | some e =>
    obtain ⟨content, modified, rfl⟩ := hfile e hget
    simp [h.plain]

/-- The second tree is the first one but for a file at the location. -/
structure Stored (l : Location) (t t' : FileTree) : Prop extends FilePut l t t' where
  clock : t'.clock = t.clock
  room : t'.room = t.room

/-- A path leads to the location in both trees that are the same but for the file. -/
theorem SameBut.leads (h : SameBut l t t') (hleads : t.Leads p l) : t'.Leads p l where
  plain := hleads.plain
  place := h.placeOf_true hleads.place
  folder outer houter := (hleads.folder outer houter).imp_right h.isFolder_of_isFolder

/-- When the file is written in the second tree, the trees are still the same but for it. -/
theorem SameBut.stored (h : SameBut l t t') (hu : Stored l t' u) : SameBut l t u where
  wellFormed := h.wellFormed
  working := hu.working.trans h.working
  clock := hu.clock.trans h.clock
  room := h.room
  room' := hu.room.trans h.room'
  get?_of_ne k hk := (hu.get?_of_ne k hk).trans (h.get?_of_ne k hk)
  onlyFile := h.onlyFile
  onlyFile' e he := by
    obtain ⟨content, modified, hfile⟩ := hu.file
    exact ⟨content, modified, Option.some.inj (he.symm.trans hfile)⟩
  stays hnone := by
    obtain ⟨content, modified, hfile⟩ := hu.file
    simp [hfile] at hnone

/-- When it is written in the first tree, they are if the second one has a file. -/
theorem SameBut.stored_first (h : SameBut l t t') (hu : Stored l t u) (hleads : t.Leads p l)
    (hthere : t'.get? l ≠ none) : SameBut l u t' where
  wellFormed := hu.wellFormed h.wellFormed h.onlyFile.ne_folder
    (parent_of_placeOf h.wellFormed hleads.place)
  working := h.working.trans hu.working.symm
  clock := h.clock.trans hu.clock.symm
  room := hu.room.trans h.room
  room' := h.room'
  get?_of_ne k hk := (h.get?_of_ne k hk).trans (hu.get?_of_ne k hk).symm
  onlyFile e he := by
    obtain ⟨content, modified, hfile⟩ := hu.file
    exact ⟨content, modified, Option.some.inj (he.symm.trans hfile)⟩
  onlyFile' := h.onlyFile'
  stays hnone := absurd hnone hthere

end FileTree

namespace FileAction

open FileTree
open PhotoIntake.Path (Component)

variable {t : FileTree} {p : Path} {l : Location}

/-- A folder that is there need not be created. -/
theorem runOn_ensureFolder_of_isFolder (h : t.isFolder p = true) :
    (ensureFolder p).runOn t = (.ok (), t) := by
  have hfails : ∃ e, (createFolder p).runOn t = (.error e, t) := by
    rw [createFolder, runOn_bind, runOn_look]
    cases hplace : t.locate false p with
    | error e => exact ⟨e, rfl⟩
    | ok place =>
      obtain ⟨k, _ | entry⟩ := place
      · -- Then nothing would be there with links followed, either.
        have hplace' := locate_of_not_link hplace (by simp)
        simp [isFolder, entry?, hplace'] at h
      · exact ⟨_, rfl⟩
  obtain ⟨e, hfails⟩ := hfails
  rw [ensureFolder, runOn_tryCatch, hfails]
  simp only [runOn_bind, runOn_get, h, if_true, runOn_pure]

/-- Neither need the folders around it. -/
theorem runOn_createFolders_of_isFolder {cs : List Component} (hcs : Path.Canonical cs)
    (h : cs = [] ∨ t.isFolder (Path.ofComponents cs) = true) :
    (createFolders (Path.ofComponents cs)).runOn t = (.ok (), t) := by
  rw [createFolders, Path.components_ofComponents hcs]
  rcases h with rfl | h
  · rfl
  · cases hreverse : cs.reverse with
    | nil => rfl
    | cons c outer =>
      rw [ensureFoldersUp, runOn_tryCatch, ← hreverse, List.reverse_reverse,
        runOn_ensureFolder_of_isFolder h]

/-- A folder is there after it was created. -/
theorem isFolder_of_createFolder (h : (createFolder p).runOn t = (.ok (), t')) :
    t'.isFolder p = true := by
  have hadded : FoldersAdded (fun _ => True) t t' := by
    rw [← treeAfter_of_runOn h]
    exact createFolder_adds fun _ _ => trivial
  rw [createFolder, runOn_bind, runOn_look] at h
  cases hplace : t.locate false p with
  | error e => simp [hplace] at h
  | ok place =>
    obtain ⟨l, _ | entry⟩ := place
    · rw [hplace] at h
      obtain rfl : t.set l .folder = t' := (Prod.mk.inj h).2
      -- The path ends in no link, since nothing was there, and leads to the same location later.
      have hplace' := locate_of_not_link hplace (by simp)
      rw [locate, Bool.true_or] at hplace'
      have hl : l ≠ [] := by
        rintro rfl
        exact absurd (entry_of_placeOf hplace') (by simp)
      rw [isFolder, entry?, locate, Bool.true_or, hadded.placeOf_true hplace', get?_set_self hl]
      simp [Entry.isFolder]
    · simp [hplace] at h

theorem isFolder_of_ensureFolder (h : (ensureFolder p).runOn t = (.ok (), t')) :
    t'.isFolder p = true := by
  rw [ensureFolder, runOn_tryCatch] at h
  rcases hcreate : (createFolder p).runOn t with ⟨e | _, t₁⟩
  · rw [hcreate] at h
    simp only [runOn_bind, runOn_get, runOn_ite] at h
    split_ifs at h with hfolder
    · obtain rfl : t₁ = t' := (Prod.mk.inj h).2
      exact hfolder
    · simp at h
  · rw [hcreate] at h
    obtain rfl : t₁ = t' := (Prod.mk.inj h).2
    exact isFolder_of_createFolder hcreate

/-- The innermost folder is the last one that is created. -/
theorem isFolder_of_createFolders {cs : List Component} (hcs : Path.Canonical cs) (hne : cs ≠ [])
    (h : (createFolders (Path.ofComponents cs)).runOn t = (.ok (), t')) :
    t'.isFolder (Path.ofComponents cs) = true := by
  rw [createFolders, Path.components_ofComponents hcs] at h
  cases hreverse : cs.reverse with
  | nil => exact absurd (List.reverse_eq_nil_iff.1 hreverse) hne
  | cons c outer =>
    rw [hreverse, ensureFoldersUp, runOn_tryCatch, ← hreverse, List.reverse_reverse] at h
    rcases hensure : (ensureFolder (Path.ofComponents cs)).runOn t with ⟨e | _, t₁⟩
    all_goals rw [hensure] at h
    · cases e with
      | missing =>
        have h : (do ensureFoldersUp outer; ensureFolder (Path.ofComponents cs) :
          FileAction Unit).runOn t₁ = (.ok (), t') := h
        rw [runOn_bind] at h
        rcases houter : (ensureFoldersUp outer).runOn t₁ with ⟨e | _, t₂⟩
        all_goals rw [houter] at h
        · simp at h
        · exact isFolder_of_ensureFolder h
      | _ => simp at h
    · obtain rfl : t₁ = t' := (Prod.mk.inj h).2
      exact isFolder_of_ensureFolder hensure

/-- Where a path leads to the location of a file, it is written, and nothing else changes. -/
theorem writeFile_stores (hleads : t.Leads p l) (hfile : t.OnlyFile l) (hroom : t.room = none)
    (content : ByteArray) : ∃ u, (writeFile p content).runOn t = (.ok (), u) ∧ Stored l t u := by
  have hopen : (openEmpty p).runOn t = (.ok (some l), t.set l (.file ByteArray.empty t.clock)) := by
    have hplace : t.locate true p = .ok ⟨l, t.get? l⟩ := by
      rw [locate, Bool.true_or, hleads.place]
    rw [openEmpty, runOn_bind, runOn_look, hplace]
    cases hget : t.get? l with
    | none => simp [hleads.plain]; rfl
    | some e =>
      obtain ⟨old, modified, rfl⟩ := hfile e hget
      simp [hleads.plain]
      rfl
  let opened := t.set l (.file ByteArray.empty t.clock)
  have hwrite : (writeFile p content).runOn t =
      (.ok (), opened.set l (.file content t.clock)) := by
    have hroom' : opened.room = none := hroom
    simp only [writeFile, runOn_bind, hopen, runOn_writeAll_some]
    rw [fill, hroom']
    rfl
  refine ⟨_, hwrite, ⟨rfl, fun k hk => ?_, _, _, get?_set_self hfile.ne_nil⟩, rfl, rfl⟩
  rw [get?_set_of_ne hk, get?_set_of_ne hk]

/-- Where nothing can be read but a file can be written, a path leads to the location of a file. -/
theorem exists_leads_of_writeFile {content : ByteArray}
    (hmissing : t.contentOf p = .error .missing) (hcontent : content.isEmpty = false)
    (hwrite : (writeFile p content).runOn t = (.ok (), t'))
    (hfolder : t.FolderThere p) :
    ∃ l, t.Leads p l ∧ t.OnlyFile l := by
  rw [writeFile, runOn_bind] at hwrite
  rcases openEmpty_cases p t with ⟨e, hopen⟩ | ⟨l, -, hopen⟩ |
    ⟨l, entry, hplace, hplain, hentry, -⟩
  · simp [hopen] at hwrite
  · rw [hopen] at hwrite
    simp [writeAll, hcontent] at hwrite
  · -- Anything that stood there would be read, or refused for another reason.
    have hnone : entry = none := by
      rw [contentOf, hplace] at hmissing
      rcases entry with _ | ⟨bytes, modified⟩ | _ | target | _
      · rfl
      all_goals simp [hplain] at hmissing
    exact ⟨l, leads_of_locate hplain hplace (fun e he => by simp [hnone] at he) hfolder⟩

/-- So a file is put there, since its folder need not be created. -/
theorem putFile_stores (hleads : t.Leads p l) (hfile : t.OnlyFile l) (hroom : t.room = none)
    (content : ByteArray) : ∃ u, (putFile p content).runOn t = (.ok (), u) ∧ Stored l t u := by
  have hput : (putFile p content).runOn t = (writeFile p content).runOn t := by
    unfold putFile inFolders
    cases houter : p.parentComponents? with
    | none => rfl
    | some outer =>
      simp only [runOn_bind, runOn_createFolders_of_isFolder
        (Path.canonical_of_parentComponents? houter) (hleads.folder outer houter)]
  rw [hput]
  exact writeFile_stores hleads hfile hroom content

end FileAction

end PhotoIntake
