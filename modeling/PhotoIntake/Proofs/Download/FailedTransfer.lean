import PhotoIntake.Proofs.Download.Confinement
import PhotoIntake.Proofs.FileTree.FailedWrite

/-!
# What a failed transfer leaves

A transfer can fail at any of its steps, and no step undoes the ones before it.  A renaming that
fails changes nothing, and a file that cannot be opened is not touched; so before the first byte is
written there are at most new folders.  When the room ends while bytes are written, the target stays
as far as it was written.

* `CutShort`: the target holds the first bytes of the source, and some are missing.
* `run_failed`: a failed transfer has added folders at most, or it was cut short.
* `LeftBy`: what a file that a download has left comes from.  It is a file of the report, or what a
  transfer that was cut short left.
* `failed_transfers_leave`: the two together, in any tree and for any target.
-/

namespace PhotoIntake

open FileTree FileAction

/-! ## One transfer -/

namespace Transfer

variable {mode : TransferMode} {source target : Path} {t t' : FileTree} {e : FileError}

theorem room_prepare (target : Path) (t : FileTree) :
    ((prepare target).treeAfter t).room = t.room := by
  unfold prepare
  cases target.parentComponents? with
  | none => rfl
  | some outer => exact keepsRoom_createFolders _ t

/-- There was not enough room for the source: a file was put where the target leads, and it holds
only the first bytes of the source. -/
structure CutShort (source target : Path) (l : Location) (t t' : FileTree) : Prop where
  leads : ∃ entry, t.locate true target = .ok ⟨l, entry⟩
  demands : target.demandsFolder = false
  put : FilePut l t t'
  torn : ∃ k content modified room, t.entry? source = some (k, .file content modified) ∧
    t.room = some room ∧ room < content.size ∧ Torn target content t'

/-- A file that was opened and then not filled to its end is cut short. -/
theorem cutShort_of_incomplete {k l : Location} {entry : Option Entry} {content : ByteArray}
    {modified : Int} (hsource : t.entry? source = some (k, .file content modified))
    (hplace : t.locate true target = .ok ⟨l, entry⟩) (hdemands : target.demandsFolder = false)
    (hentry : entry ≠ some .folder)
    (hincomplete : ((t.set l (.file ByteArray.empty t.clock)).fill l content).2 = false) :
    CutShort source target l t ((t.set l (.file ByteArray.empty t.clock)).fill l content).1 := by
  obtain ⟨room, hroom, hshort⟩ := exists_room_of_incomplete hincomplete
  exact
    { leads := ⟨entry, hplace⟩
      demands := hdemands
      put := filePut_fill (ne_nil_of_opened hplace hentry) _ content
      torn := ⟨k, content, modified, room, hsource, hroom, hshort,
        torn_of_incomplete hplace hdemands hentry hincomplete⟩ }

/-- So the target is there, whether it was there before or not. -/
theorem CutShort.isThere {l : Location} (h : CutShort source target l t t') :
    t'.isThere target = true := by
  obtain ⟨_, _, _, _, -, -, -, n, -, hcontent⟩ := h.torn
  exact isThere_of_contentOf hcontent h.demands

/-- Copying fails and changes nothing, or it is cut short. -/
theorem copyFile_failed (h : (copyFile source target).runOn t = (.error e, t')) :
    t' = t ∨ e = .noRoom ∧ ∃ l, CutShort source target l t t' := by
  by_cases hfile : ∃ k content modified, t.entry? source = some (k, .file content modified)
  · obtain ⟨k, content, modified, hsource⟩ := hfile
    rw [runOn_copyFile hsource, runOn_bind] at h
    rcases openEmpty_cases target t with ⟨e', hopen⟩ | ⟨l, -, hopen⟩ |
      ⟨l, entry, hplace, hdemands, hentry, hopen⟩
    all_goals simp only [hopen] at h
    · exact Or.inl (Prod.mk.inj h).2.symm
    · refine Or.inl ?_
      rw [← treeAfter_of_runOn h, treeAfter_fillFrom_none]
    · have hl : l ≠ [] := ne_nil_of_opened hplace hentry
      let opened := t.set l (.file ByteArray.empty t.clock)
      rw [fillFrom, runOn_bind, runOn_look] at h
      -- A source that is its own target is empty by now, and nothing of it can be missing.
      have hne : k ≠ l := by
        rintro rfl
        have hread : opened.contentAt k = .ok ByteArray.empty := by
          rw [contentAt, get?_set_self hl]
        simp only [opened] at hread
        simp only [hread] at h
        rw [runOn_writeAll_some, fill_empty_complete, if_pos rfl] at h
        simp at h
      have hread : opened.contentAt k = .ok content := by
        rw [contentAt, get?_set_of_ne hne, get?_of_entry_eq hsource]
      simp only [opened] at hread
      simp only [hread] at h
      rw [runOn_writeAll_some] at h
      obtain ⟨hresult, rfl⟩ := Prod.mk.inj h
      cases hcomplete : (opened.fill l content).2 with
      | true => simp [opened, hcomplete] at hresult
      | false =>
        obtain rfl : FileError.noRoom = e := by simpa [opened, hcomplete] using hresult
        exact Or.inr ⟨rfl, l, cutShort_of_incomplete hsource hplace hdemands hentry hcomplete⟩
  · obtain ⟨e', hfail⟩ := copyFile_fails target hfile
    exact Or.inl (Prod.mk.inj (h.symm.trans hfail)).2

/-- So does a delivery: a renaming that has failed is followed by a copy. -/
theorem deliver_failed (h : (deliver mode source target).runOn t = (.error e, t')) :
    t' = t ∨ e = .noRoom ∧ ∃ l, CutShort source target l t t' := by
  cases mode with
  | copy => exact copyFile_failed h
  | move =>
    rw [deliver, runOn_tryCatch] at h
    rcases hrename : (rename source target).runOn t with ⟨e' | _, t₁⟩
    all_goals simp only [hrename] at h
    · obtain rfl := eq_of_rename_error hrename
      rw [runOn_copyThenRemove] at h
      rcases hcopy : (copyFile source target).runOn t₁ with ⟨e'' | _, t₂⟩
      all_goals simp only [hcopy] at h
      · exact copyFile_failed (hcopy.trans h)
      · simp at h
    · simp at h

/-- A failed transfer has added folders at most, or it was cut short after that. -/
theorem run_failed (h : (run mode source target).runOn t = (.error e, t')) :
    t' = (prepare target).treeAfter t ∨
      e = .noRoom ∧ ∃ l, CutShort source target l ((prepare target).treeAfter t) t' := by
  rw [runOn_run] at h
  rcases hprepare : (prepare target).runOn t with ⟨e' | _, t₁⟩
  all_goals
    simp only [hprepare] at h
    rw [treeAfter_of_runOn hprepare]
  · exact Or.inl (Prod.mk.inj h).2.symm
  · exact deliver_failed h

/-- A target that was vacant gets its file where nothing was. -/
theorem CutShort.get?_of_vacant {l : Location} (htree : t.WellFormed) (hlinks : t.LinkFree)
    (hvacant : Vacant t target) (h : CutShort source target l ((prepare target).treeAfter t) t') :
    t.get? l = none := by
  obtain ⟨entry, hplace⟩ := h.leads
  obtain ⟨hnone, hlocation⟩ := hvacant.placeOf_prepare htree hlinks hplace
  obtain rfl : l = t.locationOf target := congrArg Place.location hlocation
  exact hnone

end Transfer

/-! ## Whole downloads -/

namespace Mover

variable {m : Mover} {plan : Plan} {files : FileTree} {clock : Clock}

/-- The file comes from the attempt at an image: it stands at the target that is reported, or the
transfer was cut short there. -/
def LeftBy (m : Mover) (plan : Plan) (files : FileTree) (clock : Clock)
    (reported : List Downloaded) (i : Nat) (image : Image) (l : Location) : Prop :=
  let before := m.jobAfter plan files clock i
  let after := m.jobAfter plan files clock (i + 1)
  let target := before.target plan clock i image
  before.downloaded plan clock i image ∈ reported ∧ StandsAt before.files target l ∨
    (Transfer.run m.mode image.source target).runOn before.files = (.error .noRoom, after.files) ∧
      Transfer.CutShort image.source target l
        ((Transfer.prepare target).treeAfter before.files) after.files

/-- A file that some attempts leave was there before, or it comes from one of them. -/
def Accounted (m : Mover) (plan : Plan) (files : FileTree) (clock : Clock) (n : Nat) : Prop :=
  ∀ l content modified,
    (m.jobAfter plan files clock n).files.get? l = some (.file content modified) →
      files.get? l = some (.file content modified) ∨ ∃ i image, i < n ∧
        m.candidates[i]? = some image ∧
        LeftBy m plan files clock (m.jobAfter plan files clock n).written i image l

/-- What is reported once stays reported. -/
theorem LeftBy.mono {reported reported' : List Downloaded} {i : Nat} {image : Image} {l : Location}
    (h : LeftBy m plan files clock reported i image l) (hsubset : reported ⊆ reported') :
    LeftBy m plan files clock reported' i image l :=
  h.imp_left fun hreported => ⟨hsubset hreported.1, hreported.2⟩

/-- The next attempt accounts for what it leaves. -/
theorem Accounted.succ {n : Nat} {image : Image} (h : Accounted m plan files clock n)
    (himage : m.candidates[n]? = some image) : Accounted m plan files clock (n + 1) := by
  intro l content modified hl
  have hjob := jobAfter_succ m plan files clock himage
  have hmode := mode_jobAfter m plan files clock n
  have hearlier
      (hbefore : (m.jobAfter plan files clock n).files.get? l = some (.file content modified))
      (hwritten : (m.jobAfter plan files clock n).written ⊆
        (m.jobAfter plan files clock (n + 1)).written) :
      files.get? l = some (.file content modified) ∨ ∃ i image, i < n + 1 ∧
        m.candidates[i]? = some image ∧
        LeftBy m plan files clock (m.jobAfter plan files clock (n + 1)).written i image l := by
    rcases h l content modified hbefore with hold | ⟨i, image, hi, himage, hleft⟩
    · exact Or.inl hold
    · exact Or.inr ⟨i, image, by omega, himage, hleft.mono hwritten⟩
  rcases Job.transferImage_cases plan clock n (m.jobAfter plan files clock n) image with
    ⟨files', hrun, heq⟩ | ⟨e, files', hrun, heq⟩
  all_goals
    rw [← hjob] at heq
    rw [hmode] at hrun
    have hfiles : (m.jobAfter plan files clock (n + 1)).files = files' := by rw [heq]
    rw [hfiles] at hl
  · have hwritten : (m.jobAfter plan files clock (n + 1)).written =
        (m.jobAfter plan files clock n).written ++
          [(m.jobAfter plan files clock n).downloaded plan clock n image] := by
      rw [heq]
    rw [← treeAfter_of_runOn hrun] at hl
    rcases Transfer.run_puts hl with hbefore | hstands
    · exact hearlier hbefore (by simp [hwritten])
    · refine Or.inr ⟨n, image, by omega, himage, Or.inl ⟨?_, hstands⟩⟩
      simp [hwritten]
  · have hwritten : (m.jobAfter plan files clock (n + 1)).written =
        (m.jobAfter plan files clock n).written := by
      rw [heq]
    have hprepared := Transfer.prepare_adds
      ((m.jobAfter plan files clock n).target plan clock n image)
      (m.jobAfter plan files clock n).files
    rcases Transfer.run_failed hrun with hfolders | ⟨rfl, l', hcut⟩
    · rw [hfolders] at hl
      exact hearlier (hprepared.get?_of_file hl) (by simp [hwritten])
    · by_cases hsame : l = l'
      · subst hsame
        rw [← hfiles] at hrun hcut
        exact Or.inr ⟨n, image, by omega, himage, Or.inr ⟨hrun, hcut⟩⟩
      · rw [hcut.put.get?_of_ne l hsame] at hl
        exact hearlier (hprepared.get?_of_file hl) (by simp [hwritten])

theorem accounted_jobAfter (m : Mover) (plan : Plan) (files : FileTree) (clock : Clock) {n : Nat}
    (hn : n ≤ m.candidates.length) : Accounted m plan files clock n :=
  attempts_induction (fun _ _ _ h => Or.inl h) (fun _ _ himage h => h.succ himage) hn

/-- A failed transfer keeps all files and adds folders at most, unless it was cut short, which it is
only for want of room.  So a vacant target stays vacant if and only if the transfer was not cut
short, and if it was, the file was put where nothing stood.  And every file that a download leaves
was there before, or stands at a target that it reports, or was put at the target of an attempt that
was cut short. -/
theorem failed_transfers_leave (mode : TransferMode) (source target : Path) (t t' : FileTree)
    (e : FileError) (m : Mover) (plan : Plan) (files : FileTree) (clock : Clock)
    (answer : Nat → Bool) :
    let prepared := (Transfer.prepare target).treeAfter t
    let result := ((m.download files clock).run answer 0).1
    ((Transfer.run mode source target).runOn t = (.error e, t') →
      FoldersAdded (fun _ => True) t prepared ∧ FilesKept t prepared ∧
      (t' = prepared ∨
        e = .noRoom ∧ ∃ l, Transfer.CutShort source target l prepared t') ∧
      (t.room = none → t' = prepared) ∧
      (t.WellFormed → t.LinkFree → Transfer.Vacant t target →
        (t'.isThere target = false ↔ ¬ ∃ l, Transfer.CutShort source target l prepared t') ∧
          ∀ l, Transfer.CutShort source target l prepared t' → t.get? l = none)) ∧
    (m.plan? = some plan → ∀ l content modified,
      result.2.2.get? l = some (.file content modified) →
        files.get? l = some (.file content modified) ∨
          ∃ i image, i < attempts answer m.candidates.length ∧ m.candidates[i]? = some image ∧
            LeftBy m plan files clock result.1.images i image l) := by
  intro prepared result
  constructor
  · intro hrun
    have hadded := Transfer.prepare_adds target t
    have hfailed := Transfer.run_failed hrun
    refine ⟨hadded, hadded.filesKept, hfailed, fun hroom => ?_, fun htree hlinks hvacant => ⟨?_,
      fun l hcut => hcut.get?_of_vacant htree hlinks hvacant⟩⟩
    · rcases hfailed with hsame | ⟨-, l, hcut⟩
      · exact hsame
      · obtain ⟨_, _, _, room, -, hroom', -⟩ := hcut.torn
        rw [Transfer.room_prepare, hroom] at hroom'
        cases hroom'
    · constructor
      · rintro hgone ⟨l, hcut⟩
        rw [hcut.isThere] at hgone
        cases hgone
      · intro hcut
        obtain rfl : t' = prepared := hfailed.resolve_right fun hshort => hcut hshort.2
        exact hvacant.isThere_prepare htree hlinks
  · intro hplan
    have hrun := run_download files clock answer hplan
    have hreport : result.1.images =
        (m.jobAfter plan files clock (attempts answer m.candidates.length)).written := by
      simp only [result, hrun, images_reportAfter]
    have hafter : result.2.2 =
        (m.jobAfter plan files clock (attempts answer m.candidates.length)).files := by
      simp only [result, hrun]
    rw [hreport, hafter]
    exact accounted_jobAfter m plan files clock (attempts_le answer m.candidates.length)

/-! ### A sample -/

/-- A card with an image of two bytes, where there is room for one. -/
def sampleFull : FileTree :=
  { entries := [(["card"], .folder), (["card", "a"], .file "AB".toUTF8 0), (["out"], .folder)]
    working := []
    room := some 1
    clock := 1 }

/-- A mover that copies the image. -/
def sampleCopier : Mover :=
  { sampleMover "y" with mode := .copy, workingSet := ⟨[sampleImage "card/a"]⟩ }

theorem failed_transfers_leave_sample :
    let copy := Transfer.run .copy ⟨"card/a"⟩ ⟨"out/y"⟩
    let result := ((sampleCopier.download sampleFull sampleClock).run (fun _ => false) 0).1
    copy.runOn sampleFull = (.error .noRoom, copy.treeAfter sampleFull) ∧
      sampleFull.WellFormed ∧ sampleFull.LinkFree ∧ Transfer.Vacant sampleFull ⟨"out/y"⟩ ∧
      (∃ l, Transfer.CutShort ⟨"card/a"⟩ ⟨"out/y"⟩ l
        ((Transfer.prepare ⟨"out/y"⟩).treeAfter sampleFull) (copy.treeAfter sampleFull)) ∧
      sampleCopier.plan? = some (samplePlan "y") ∧
      ∃ i image, LeftBy sampleCopier (samplePlan "y") sampleFull sampleClock result.1.images
        i image ["out", "y"] := by
  intro copy result
  have herror : (copy.runOn sampleFull).1 = .error .noRoom := by decide +kernel
  have hcopy : copy.runOn sampleFull = (.error .noRoom, copy.treeAfter sampleFull) :=
    Prod.ext herror rfl
  have htree : sampleFull.WellFormed :=
    wellFormed_of_entries (by simp [sampleFull, FileTree.get?, List.lookup_cons]) rfl
  have hlinks : sampleFull.LinkFree := linkFree_of_entries (by simp [sampleFull])
  have hvacant : Transfer.Vacant sampleFull ⟨"out/y"⟩ :=
    { free := by decide +kernel
      descends := by decide
      ends := ⟨[.name "out"], "y", by decide⟩
      demands := by decide }
  obtain ⟨htransfer, hdownload⟩ := failed_transfers_leave .copy ⟨"card/a"⟩ ⟨"out/y"⟩ sampleFull
    (copy.treeAfter sampleFull) .noRoom sampleCopier (samplePlan "y") sampleFull sampleClock
    (fun _ => false)
  refine ⟨hcopy, htree, hlinks, hvacant, ?_, rfl, ?_⟩
  · obtain ⟨-, -, -, -, hleft⟩ := htransfer hcopy
    obtain ⟨hgone, -⟩ := hleft htree hlinks hvacant
    have hthere : (copy.treeAfter sampleFull).isThere ⟨"out/y"⟩ = true := by decide +kernel
    by_contra hcut
    rw [hgone.2 hcut] at hthere
    cases hthere
  · have hfile : result.2.2.get? ["out", "y"] = some (.file ("AB".toUTF8.extract 0 1) 1) := rfl
    rcases hdownload rfl _ _ _ hfile with hold | ⟨i, image, -, -, hleft⟩
    · have hnone : sampleFull.get? ["out", "y"] = none := rfl
      rw [hnone] at hold
      cases hold
    · exact ⟨i, image, hleft⟩

/-- The copy fails, the target was not there and is there, and the download reports nothing. -/
theorem failed_copy_leaves_target :
    let copy := Transfer.run .copy ⟨"card/a"⟩ ⟨"out/y"⟩
    let result := ((sampleCopier.download sampleFull sampleClock).run (fun _ => false) 0).1
    (copy.runOn sampleFull).1 = .error .noRoom ∧ sampleFull.isThere ⟨"out/y"⟩ = false ∧
      (copy.treeAfter sampleFull).isThere ⟨"out/y"⟩ = true ∧
      result.1.images = [] ∧ result.2.2.isFile ⟨"out/y"⟩ = true := by
  decide +kernel

end Mover

end PhotoIntake
