import PhotoIntake.Proofs.Download.Attempts
import PhotoIntake.Proofs.Download.Delivery

/-!
# Downloads destroy nothing

A target is chosen free before its folders are created and its file is written, in a tree that the
attempts before have changed.  In a tree without links, and with a destination that never goes up,
that is enough: what the choice has found free is still free when the file is written.

* `Plan.vacant_target`: where an image with a proper name goes, nothing is.
* `Kept` is the invariant of the attempts, and `Kept.attempt` its step.
* `download_preserves`: a download overwrites nothing, reports different destinations that hold what
  their sources held, and takes away nothing but the sources of what it has moved.
-/

namespace PhotoIntake.Mover

open FileTree
open Naming (Occasion)

/-! ## The targets of a plan -/

namespace Plan

/-- An image whose name is a name goes where nothing is. -/
theorem vacant_target {plan : Plan} (hup : Path.Component.parent ∉ plan.destination.components)
    {o : Occasion} (hname : Path.IsName (plan.imageTemplate.render o .image)) (t : FileTree) :
    Transfer.Vacant t (plan.target t o) := by
  have hchosen := Transfer.isName_freeName hname t (plan.folder o)
  obtain ⟨names, hnames, hfolder⟩ := plan.components_folder o
  have hcomponents : (plan.target t o).components =
      plan.destination.components ++ names.map .name ++
        [.name (Transfer.freeName t (plan.folder o) (plan.imageTemplate.render o .image))] := by
    rw [target, Path.components_join_name hchosen, hfolder]
  refine ⟨Transfer.isThere_freeName _ _ _, ?_, ⟨_, _, hcomponents⟩,
    Path.demandsFolder_join_name hchosen⟩
  rw [hcomponents]
  simpa using hup

end Plan

/-! ## What the attempts keep -/

variable {m : Mover} {plan : Plan} {files : FileTree} {clock : Clock}

/-- What holds after some attempts: the files of before are in place, but for the sources of what
was moved; the sources of the images that remain are among them; what was written is in place, at
locations of its own. -/
structure Kept (mode : TransferMode) (files : FileTree) (remaining : List Image) (now : FileTree)
    (written : List Downloaded) : Prop where
  working : now.working = files.working
  linkFree : now.LinkFree
  wellFormed : now.WellFormed
  folders : ∀ l, files.get? l = some .folder → now.get? l = some .folder
  inPlace : ∀ l content modified, files.get? l = some (.file content modified) →
    now.get? l = some (.file content modified) ∨
      mode = .move ∧ ∃ d ∈ written, l = files.locationOf ⟨d.key⟩
  pending : ∀ image ∈ remaining,
    now.get? (files.locationOf image.source) = files.get? (files.locationOf image.source)
  holds : ∀ d ∈ written, ∃ content modified modified',
    files.entry? ⟨d.key⟩ = some (files.locationOf ⟨d.key⟩, .file content modified) ∧
      now.entry? d.destination = some (files.locationOf d.destination, .file content modified')
  apart : ∀ d ∈ written, ∀ image ∈ remaining,
    files.locationOf d.destination ≠ files.locationOf image.source
  distinct : (written.map fun d => files.locationOf d.destination).Nodup

/-- The sources of the images are files, each one another. -/
structure SourcesApart (files : FileTree) (images : List Image) : Prop where
  isFile : ∀ image ∈ images, files.isFile image.source = true
  distinct : images.Pairwise fun i j => files.locationOf i.source ≠ files.locationOf j.source

theorem kept_start (mode : TransferMode) (htree : files.WellFormed) (hlinks : files.LinkFree)
    (images : List Image) : Kept mode files images files [] where
  working := rfl
  linkFree := hlinks
  wellFormed := htree
  folders _ h := h
  inPlace _ _ _ h := Or.inl h
  pending _ _ := rfl
  holds _ h := absurd h List.not_mem_nil
  apart _ h := absurd h List.not_mem_nil
  distinct := List.nodup_nil

/-- A file that a path means, as an entry. -/
theorem exists_of_isFile {t : FileTree} (hlinks : t.LinkFree) {p : Path} (h : t.isFile p = true) :
    ∃ content modified, t.entry? p = some (t.locationOf p, .file content modified) := by
  unfold isFile at h
  split at h
  · rename_i l content modified hentry
    obtain rfl := location_of_entry_eq hlinks hentry
    exact ⟨content, modified, hentry⟩
  · simp at h

namespace Kept

variable {mode : TransferMode} {now t' : FileTree} {written : List Downloaded} {image : Image}
  {rest : List Image} {L : Location} {gone : Prop}

/-- The source of the next image is still the file that it was. -/
theorem get?_source (h : Kept mode files (image :: rest) now written) {content : ByteArray}
    {modified : Int}
    (hsource : files.entry? image.source =
      some (files.locationOf image.source, .file content modified)) :
    now.get? (files.locationOf image.source) = some (.file content modified) := by
  rw [h.pending image List.mem_cons_self, get?_of_entry_eq hsource]

/-- The sources that remain after the next one stay in place. -/
theorem pending_of_delivered (h : Kept mode files (image :: rest) now written)
    (hlinks : files.LinkFree) (hsources : SourcesApart files (image :: rest))
    (hd : Transfer.Delivered (files.locationOf image.source) L gone now t') :
    ∀ other ∈ rest, t'.get? (files.locationOf other.source) =
      files.get? (files.locationOf other.source) := by
  intro other hother
  obtain ⟨content, modified, hentry⟩ :=
    exists_of_isFile hlinks (hsources.isFile other (List.mem_cons_of_mem _ hother))
  have hthere := h.pending other (List.mem_cons_of_mem _ hother)
  rw [get?_of_entry_eq hentry] at hthere ⊢
  have hother : files.locationOf image.source ≠ files.locationOf other.source :=
    (List.pairwise_cons.1 hsources.distinct).1 other hother
  exact hd.get?_file hthere fun _ => hother.symm

/-- What was written stays in place. -/
theorem holds_of_delivered (h : Kept mode files (image :: rest) now written)
    {content : ByteArray} {modified : Int}
    (hsource : files.entry? image.source =
      some (files.locationOf image.source, .file content modified))
    (hd : Transfer.Delivered (files.locationOf image.source) L gone now t') :
    ∀ d ∈ written, ∃ content modified modified',
      files.entry? ⟨d.key⟩ = some (files.locationOf ⟨d.key⟩, .file content modified) ∧
        t'.entry? d.destination =
          some (files.locationOf d.destination, .file content modified') := by
  intro d hmem
  obtain ⟨content, modified, modified', hkey, hdestination⟩ := h.holds d hmem
  refine ⟨content, modified, modified', hkey, ?_⟩
  refine entry?_mono h.linkFree hd.linkFree hd.working
    (fun l => hd.get?_folder (h.get?_source hsource)) hdestination ?_
  exact hd.get?_file (get?_of_entry_eq hdestination) fun _ =>
    h.apart d hmem image List.mem_cons_self

/-- Where nothing is, nothing was written and no source remains. -/
theorem apart_of_free (h : Kept mode files (image :: rest) now written) (hlinks : files.LinkFree)
    (hsources : SourcesApart files (image :: rest)) (hfree : now.get? L = none) :
    (∀ d ∈ written, files.locationOf d.destination ≠ L) ∧
      ∀ other ∈ rest, L ≠ files.locationOf other.source := by
  constructor
  · rintro d hmem rfl
    obtain ⟨_, _, _, -, hdestination⟩ := h.holds d hmem
    rw [get?_of_entry_eq hdestination] at hfree
    simp at hfree
  · rintro other hother rfl
    obtain ⟨_, _, hentry⟩ :=
      exists_of_isFile hlinks (hsources.isFile other (List.mem_cons_of_mem _ hother))
    rw [h.pending other (List.mem_cons_of_mem _ hother), get?_of_entry_eq hentry] at hfree
    simp at hfree

/-- An attempt that fails keeps what holds. -/
theorem fails (h : Kept mode files (image :: rest) now written) (hlinks : files.LinkFree)
    (hsources : SourcesApart files (image :: rest))
    (hd : Transfer.Delivered (files.locationOf image.source) L gone now t') (hgone : ¬ gone) :
    Kept mode files rest t' written := by
  obtain ⟨content, modified, hsource⟩ :=
    exists_of_isFile hlinks (hsources.isFile image List.mem_cons_self)
  refine ⟨hd.working.trans h.working, hd.linkFree, hd.wellFormed,
    fun l hl => hd.get?_folder (h.get?_source hsource) (h.folders l hl), ?_,
    h.pending_of_delivered hlinks hsources hd, h.holds_of_delivered hsource hd,
    fun d hmem other hother => h.apart d hmem other (List.mem_cons_of_mem _ hother), h.distinct⟩
  intro l content modified hl
  exact (h.inPlace l content modified hl).imp_left fun hthere =>
    hd.get?_file hthere fun h => absurd h hgone

/-- So does an attempt that writes its image where nothing was. -/
theorem writes (h : Kept mode files (image :: rest) now written) (hlinks : files.LinkFree)
    (hsources : SourcesApart files (image :: rest)) {content : ByteArray} {modified modified' : Int}
    (hsource : files.entry? image.source =
      some (files.locationOf image.source, .file content modified))
    {d : Downloaded} (hkey : d.key = image.key)
    (hd : Transfer.Delivered (files.locationOf image.source) (files.locationOf d.destination) gone
      now t')
    (hgone : gone → mode = .move) (hfree : now.get? (files.locationOf d.destination) = none)
    (htarget : t'.entry? d.destination =
      some (files.locationOf d.destination, .file content modified')) :
    Kept mode files rest t' (written ++ [d]) := by
  have hsource' : (⟨d.key⟩ : Path) = image.source := congrArg Path.mk hkey
  obtain ⟨hnew, hapart⟩ := h.apart_of_free hlinks hsources hfree
  refine ⟨hd.working.trans h.working, hd.linkFree, hd.wellFormed,
    fun l hl => hd.get?_folder (h.get?_source hsource) (h.folders l hl), ?_,
    h.pending_of_delivered hlinks hsources hd, ?_, ?_, ?_⟩
  · intro l content modified hl
    rcases h.inPlace l content modified hl with hthere | ⟨hmove, old, hmem, hl⟩
    · by_cases hmoved : gone ∧ l = files.locationOf image.source
      · exact Or.inr ⟨hgone hmoved.1, d, by simp, hsource' ▸ hmoved.2⟩
      · exact Or.inl (hd.get?_file hthere fun h hl => hmoved ⟨h, hl⟩)
    · exact Or.inr ⟨hmove, old, List.mem_append_left _ hmem, hl⟩
  · intro d' hmem
    rcases List.mem_append.1 hmem with hold | hlast
    · exact h.holds_of_delivered hsource hd d' hold
    · obtain rfl := List.mem_singleton.1 hlast
      exact ⟨content, modified, modified', hsource' ▸ hsource, htarget⟩
  · intro d' hmem other hother
    rcases List.mem_append.1 hmem with hold | hlast
    · exact h.apart d' hold other (List.mem_cons_of_mem _ hother)
    · obtain rfl := List.mem_singleton.1 hlast
      exact hapart other hother
  · rw [List.map_append, List.nodup_append]
    refine ⟨h.distinct, List.nodup_singleton _, ?_⟩
    intro l hl l' hl'
    obtain ⟨old, hmem, rfl⟩ := List.mem_map.1 hl
    rw [List.map_singleton, List.mem_singleton] at hl'
    rw [hl']
    exact hnew old hmem

/-- An attempt at a vacant target keeps what holds. -/
theorem attempt {job : Job} {index : Nat}
    (h : Kept mode files (image :: rest) job.files job.written) (hlinks : files.LinkFree)
    (hsources : SourcesApart files (image :: rest)) (hmode : job.mover.mode = mode)
    (hvacant : Transfer.Vacant job.files (job.target plan clock index image)) :
    Kept mode files rest (Job.transferImage plan clock (2 * index) job image).files
      (Job.transferImage plan clock (2 * index) job image).written := by
  obtain ⟨content, modified, hsource⟩ :=
    exists_of_isFile hlinks (hsources.isFile image List.mem_cons_self)
  have hsource' := entry?_mono hlinks h.linkFree h.working h.folders hsource
    (h.get?_source hsource)
  rcases Job.transferImage_cases plan clock index job image with
    ⟨t', hrun, hjob⟩ | ⟨e, t', hrun, hjob⟩
  all_goals
    rw [hmode] at hrun
    obtain ⟨hd, hok⟩ := Transfer.run_delivers h.wellFormed h.linkFree hsource' hvacant hrun
    rw [locationOf_congr h.working] at hd hok
    rw [hjob]
  · obtain ⟨hfree, modified', htarget⟩ := hok rfl
    rw [Job.downloaded]
    generalize job.target plan clock index image = target at hd hfree htarget ⊢
    exact h.writes (d := ⟨image.key, clock.now, target⟩) hlinks hsources hsource rfl hd
      (fun hgone => hgone.1) hfree htarget
  · exact h.fails hlinks hsources hd (by simp)

end Kept

/-! ## Whole downloads -/

/-- The images that an attempt comes upon have proper names. -/
def NamesProper (m : Mover) (plan : Plan) (files : FileTree) (clock : Clock) (attempts : Nat) :
    Prop :=
  ∀ i image, i < attempts → m.candidates[i]? = some image →
    Path.IsName (plan.imageTemplate.render
      ((m.jobAfter plan files clock i).occasion clock i image) .image)

/-- The target of an attempt is vacant. -/
theorem vacant_of_namesProper {n : Nat} (hnames : NamesProper m plan files clock n)
    (hup : Path.Component.parent ∉ plan.destination.components) {i : Nat} {image : Image}
    (hi : i < n) (himage : m.candidates[i]? = some image) :
    Transfer.Vacant (m.jobAfter plan files clock i).files
      ((m.jobAfter plan files clock i).target plan clock i image) :=
  Plan.vacant_target hup (hnames i image hi himage) _

/-- One attempt after the other keeps what holds. -/
theorem kept_jobAfter (hup : Path.Component.parent ∉ plan.destination.components)
    (htree : files.WellFormed) (hlinks : files.LinkFree)
    (hsources : SourcesApart files m.candidates) {n : Nat}
    (hnames : NamesProper m plan files clock n) {i : Nat} (hi : i ≤ n)
    (hlength : i ≤ m.candidates.length) :
    Kept m.mode files (m.candidates.drop i) (m.jobAfter plan files clock i).files
      (m.jobAfter plan files clock i).written := by
  revert hi
  refine attempts_induction (fun _ => kept_start m.mode htree hlinks m.candidates) ?_ hlength
  intro i image himage ih hi
  have hkept := ih (by omega)
  have hdrop : m.candidates.drop i = image :: m.candidates.drop (i + 1) := by
    obtain ⟨hlt, rfl⟩ := List.getElem?_eq_some_iff.1 himage
    exact List.drop_eq_getElem_cons hlt
  have hrest : SourcesApart files (image :: m.candidates.drop (i + 1)) := by
    rw [← hdrop]
    exact ⟨fun image himage => hsources.isFile image (List.mem_of_mem_drop himage),
      hsources.distinct.drop⟩
  rw [hdrop] at hkept
  rw [jobAfter_succ m plan files clock himage]
  exact hkept.attempt hlinks hrest (mode_jobAfter m plan files clock i)
    (vacant_of_namesProper hnames hup (by omega) himage)

/-- The bytes of a file that a path means. -/
theorem contentOf_of_entry_eq {t : FileTree} {p : Path} {l : Location} {content : ByteArray}
    {modified : Int} (h : t.entry? p = some (l, .file content modified)) :
    t.contentOf p = .ok content := by
  obtain ⟨hlocate, hfolder⟩ := entry?_eq_some_iff.1 h
  unfold contentOf
  rw [hlocate]
  simpa [Entry.isFolder] using hfolder

/-- A download destroys nothing, however long it runs.  Where an image goes, nothing is, neither
before nor after the folders are created; the reported destinations lie apart, and each holds the
bytes that its source had; every file of before is in place, but for the sources of what was
moved. -/
theorem download_preserves (m : Mover) (plan : Plan) (files : FileTree) (clock : Clock)
    (answer : Nat → Bool) (hplan : m.plan? = some plan)
    (hup : Path.Component.parent ∉ plan.destination.components)
    (htree : files.WellFormed) (hlinks : files.LinkFree)
    (hsources : SourcesApart files m.candidates)
    (hnames : NamesProper m plan files clock (attempts answer m.candidates.length)) :
    let report := ((m.download files clock).run answer 0).1.1
    let after := ((m.download files clock).run answer 0).1.2.2
    (∀ i image, i < attempts answer m.candidates.length → m.candidates[i]? = some image →
      let before := (m.jobAfter plan files clock i).files
      let target := (m.jobAfter plan files clock i).target plan clock i image
      before.isThere target = false ∧
        ((Transfer.prepare target).treeAfter before).isThere target = false) ∧
    (report.images.map fun d => files.locationOf d.destination).Nodup ∧
    (∀ d ∈ report.images, ∃ content, files.contentOf ⟨d.key⟩ = .ok content ∧
      after.contentOf d.destination = .ok content) ∧
    ∀ l content modified, files.get? l = some (.file content modified) →
      after.get? l = some (.file content modified) ∨
        m.mode = .move ∧ ∃ d ∈ report.images, l = files.locationOf ⟨d.key⟩ := by
  intro report after
  have hn : attempts answer m.candidates.length ≤ m.candidates.length := attempts_le _ _
  have hkept := kept_jobAfter hup htree hlinks hsources hnames (Nat.le_refl _) hn
  have hrun := run_download files clock answer hplan
  have hreport : report.images =
      (m.jobAfter plan files clock (attempts answer m.candidates.length)).written := by
    simp only [report, hrun, images_reportAfter]
  have hafter : after =
      (m.jobAfter plan files clock (attempts answer m.candidates.length)).files := by
    simp only [after, hrun]
  rw [hreport, hafter]
  refine ⟨fun i image hi himage => ?_, hkept.distinct, fun d hmem => ?_, hkept.inPlace⟩
  · have hvacant := vacant_of_namesProper hnames hup hi himage
    have hbefore := kept_jobAfter hup htree hlinks hsources hnames (Nat.le_of_lt hi)
      (Nat.le_trans (Nat.le_of_lt hi) hn)
    exact ⟨hvacant.free, hvacant.isThere_prepare hbefore.wellFormed hbefore.linkFree⟩
  · obtain ⟨content, modified, modified', hkey, hdestination⟩ := hkept.holds d hmem
    exact ⟨content, contentOf_of_entry_eq hkey, contentOf_of_entry_eq hdestination⟩

/-- Two images that get the name of a file that is there go beside it. -/
theorem download_preserves_sample :
    let result := ((sampleMover "x").download sampleFiles sampleClock).run (fun _ => false) 0
    result.1.1.images.map (·.destination) = [⟨"out/x-1"⟩, ⟨"out/x-2"⟩] ∧
      (∀ d ∈ result.1.1.images, ∃ content, sampleFiles.contentOf ⟨d.key⟩ = .ok content ∧
        result.1.2.2.contentOf d.destination = .ok content) ∧
      ∀ l content modified, sampleFiles.get? l = some (.file content modified) →
        result.1.2.2.get? l = some (.file content modified) ∨
          (sampleMover "x").mode = .move ∧
            ∃ d ∈ result.1.1.images, l = sampleFiles.locationOf ⟨d.key⟩ := by
  have hnames : NamesProper (sampleMover "x") (samplePlan "x") sampleFiles sampleClock
      (attempts (fun _ => false) (sampleMover "x").candidates.length) := by
    intro i image _ himage
    exact isName_render_sample (by decide) himage
  have htree : sampleFiles.WellFormed :=
    wellFormed_of_entries (by simp [sampleFiles, FileTree.get?, List.lookup_cons]) rfl
  have hlinks : sampleFiles.LinkFree := linkFree_of_entries (by simp [sampleFiles])
  have hall := download_preserves (sampleMover "x") (samplePlan "x") sampleFiles sampleClock
    (fun _ => false) rfl (by decide) htree hlinks ⟨by decide, by decide⟩ hnames
  exact ⟨by decide +kernel, hall.2.2⟩

end PhotoIntake.Mover
