import PhotoIntake.Proofs.Download.Attempts
import PhotoIntake.Proofs.Download.Delivery

/-!
# Where downloads write

The folder of an image is made of the names that its template renders, so it lies below the
destination whatever the texts are.  The name of the image is joined to it as it is rendered.  A
name with a way up in it, or one that starts at the root, leads elsewhere.

* `StaysBelow`: the names that lead from a folder to something below a root, and
  `liesBelow_join_iff` that there are no others.
* `Traced` is the invariant of the attempts: what was written went to the target of an attempt.
* `download_confined`: which targets lie below the destination, and that nothing is written anywhere
  but at targets.
-/

namespace PhotoIntake

/-! ## Paths below a root -/

namespace Path

/-- The path is the root followed by one or more names. -/
def LiesBelow (root p : Path) : Prop :=
  ∃ names : List String, names ≠ [] ∧ (∀ s ∈ names, IsName s) ∧
    p.components = root.components ++ names.map .name

/-- The path leads from a folder to something below the root: if it replaces the folder it lies
there itself, and if not it never goes up, and goes down unless the folder already does. -/
def StaysBelow (root folder q : Path) : Prop :=
  if q.isAbsolute = true ∨ folder.text = "" then root.LiesBelow q
  else Component.parent ∉ q.components ∧ (q.names = [] → folder.components ≠ root.components)

/-- From a folder that is reached by names, exactly these paths lead to something below the root. -/
theorem liesBelow_join_iff {root folder q : Path} {names : List String}
    (hnames : ∀ s ∈ names, IsName s)
    (hfolder : folder.components = root.components ++ names.map .name) :
    root.LiesBelow (folder.join q) ↔ root.StaysBelow folder q := by
  unfold StaysBelow
  split_ifs with hreplaces
  · rcases hreplaces with habsolute | hempty
    · rw [join_of_isAbsolute habsolute]
    · rw [join_of_text_empty hempty]
  · rw [not_or] at hreplaces
    have hjoin : (folder.join q).components =
        root.components ++ (names.map .name ++ q.body) := by
      rw [components_join hreplaces.2 (by simpa using hreplaces.1), hfolder, List.append_assoc]
    rw [parent_mem_components_iff, names_eq]
    have hname? (names : List String) :
        (names.map Component.name).filterMap Component.name? = names := by
      simp [List.filterMap_map, Function.comp_def, Component.name?]
    constructor
    · rintro ⟨all, hall, -, hcomponents⟩
      rw [hjoin] at hcomponents
      have hbody : names.map .name ++ q.body = all.map Component.name :=
        List.append_cancel_left hcomponents
      refine ⟨fun hup => ?_, fun hnone hsame => ?_⟩
      · have hmem : Component.parent ∈ all.map Component.name :=
          hbody ▸ List.mem_append_right _ hup
        simp at hmem
      · have hnil : names = [] := by
          rw [hfolder] at hsame
          simpa using hsame
        rw [hnil, List.map_nil, List.nil_append] at hbody
        rw [hbody, hname?] at hnone
        exact hall hnone
    · rintro ⟨hup, hdown⟩
      obtain ⟨more, hmore⟩ := exists_names_of_inner (fun c => isInner_of_mem_body) hup
      refine ⟨names ++ more, fun hnil => ?_, fun s hs => ?_, ?_⟩
      · obtain ⟨rfl, rfl⟩ := List.append_eq_nil_iff.1 hnil
        exact hdown (by rw [hmore, hname?]) (by rw [hfolder, List.map_nil, List.append_nil])
      · rcases List.mem_append.1 hs with hs | hs
        · exact hnames s hs
        · have hinner : Component.IsInner (.name s) :=
            isInner_of_mem_body (hmore ▸ List.mem_map_of_mem hs)
          exact hinner
      · rw [hjoin, hmore, List.map_append]

end Path

namespace Mover

open FileTree
open Naming (Occasion)

variable {m : Mover} {plan : Plan} {files : FileTree} {clock : Clock}

/-! ## What the attempts write -/

/-- The name that is chosen for the next image. -/
def Job.chosenName (plan : Plan) (clock : Clock) (index : Nat) (job : Job) (image : Image) :
    String :=
  let o := job.occasion clock index image
  Transfer.freeName job.files (plan.folder o) (plan.imageTemplate.render o .image)

/-- A target lies below the destination if its name stays there; the folder does in any case. -/
theorem Job.liesBelow_target_iff (plan : Plan) (clock : Clock) (index : Nat) (job : Job)
    (image : Image) :
    plan.destination.LiesBelow (job.target plan clock index image) ↔
      plan.destination.StaysBelow (plan.folder (job.occasion clock index image))
        ⟨job.chosenName plan clock index image⟩ := by
  obtain ⟨names, hnames, hfolder⟩ := plan.components_folder (job.occasion clock index image)
  exact Path.liesBelow_join_iff hnames hfolder

/-- A name that is a name stays below the destination. -/
theorem Job.liesBelow_target (plan : Plan) (clock : Clock) (index : Nat) (job : Job) (image : Image)
    (hname : Path.IsName (plan.imageTemplate.render (job.occasion clock index image) .image)) :
    plan.destination.LiesBelow (job.target plan clock index image) := by
  obtain ⟨names, hnames, hfolder⟩ := plan.components_folder (job.occasion clock index image)
  have hchosen := Transfer.isName_freeName hname job.files
    (plan.folder (job.occasion clock index image))
  refine ⟨names ++ [job.chosenName plan clock index image], by simp, fun s hs => ?_, ?_⟩
  · rcases List.mem_append.1 hs with hs | hs
    · exact hnames s hs
    · rw [List.mem_singleton.1 hs]
      exact hchosen
  · rw [Job.target, Plan.target, Path.components_join_name hchosen, hfolder]
    simp [Job.chosenName]

/-- The file stands where a target leads once its folders are created, or below. -/
def StandsAt (before : FileTree) (target : Path) (l : Location) : Prop :=
  ∃ b place, ((Transfer.prepare target).treeAfter before).placeOf b target = .ok place ∧
    place.location <+: l

/-- What was written after some attempts went to the target of one of them. -/
structure Traced (m : Mover) (plan : Plan) (files : FileTree) (clock : Clock) (n : Nat) : Prop where
  written : ∀ d ∈ (m.jobAfter plan files clock n).written, ∃ i image, i < n ∧
    m.candidates[i]? = some image ∧
      d.destination = (m.jobAfter plan files clock i).target plan clock i image
  files : ∀ l content modified,
    (m.jobAfter plan files clock n).files.get? l = some (.file content modified) →
      files.get? l = some (.file content modified) ∨ ∃ i image, i < n ∧
        m.candidates[i]? = some image ∧ StandsAt (m.jobAfter plan files clock i).files
          ((m.jobAfter plan files clock i).target plan clock i image) l

/-- The next attempt writes at its target and nowhere else. -/
theorem Traced.succ {n : Nat} {image : Image} (h : Traced m plan files clock n)
    (himage : m.candidates[n]? = some image) : Traced m plan files clock (n + 1) := by
  have hjob := jobAfter_succ m plan files clock himage
  refine ⟨fun d hd => ?_, fun l content modified hl => ?_⟩
  · rw [hjob] at hd
    rcases Job.mem_written_transferImage hd with hd | rfl
    · obtain ⟨i, image, hi, hrest⟩ := h.written d hd
      exact ⟨i, image, by omega, hrest⟩
    · exact ⟨n, image, by omega, himage, Job.destination_downloaded ..⟩
  · rw [hjob, Job.files_transferImage] at hl
    rcases Transfer.run_puts hl with hbefore | hstands
    · rcases h.files l content modified hbefore with hold | ⟨i, image, hi, hrest⟩
      · exact Or.inl hold
      · exact Or.inr ⟨i, image, by omega, hrest⟩
    · exact Or.inr ⟨n, image, by omega, himage, hstands⟩

theorem traced_jobAfter (m : Mover) (plan : Plan) (files : FileTree) (clock : Clock) {n : Nat}
    (hn : n ≤ m.candidates.length) : Traced m plan files clock n :=
  attempts_induction ⟨fun _ h => absurd h List.not_mem_nil, fun _ _ _ h => Or.inl h⟩
    (fun _ _ himage h => h.succ himage) hn

/-! ## Whole downloads -/

/-- A download writes at the targets of its attempts and nowhere else, and reports no other
destinations.  A target lies below the destination if and only if the name that was chosen for the
image stays there, and it does if the name that was rendered for it is one name. -/
theorem download_confined (m : Mover) (plan : Plan) (files : FileTree) (clock : Clock)
    (answer : Nat → Bool) (hplan : m.plan? = some plan) :
    let reached := attempts answer m.candidates.length
    let result := ((m.download files clock).run answer 0).1
    let target := fun i image => (m.jobAfter plan files clock i).target plan clock i image
    (∀ i image, plan.destination.LiesBelow (target i image) ↔
      plan.destination.StaysBelow
        (plan.folder ((m.jobAfter plan files clock i).occasion clock i image))
        ⟨(m.jobAfter plan files clock i).chosenName plan clock i image⟩) ∧
    (∀ i image, Path.IsName (plan.imageTemplate.render
        ((m.jobAfter plan files clock i).occasion clock i image) .image) →
      plan.destination.LiesBelow (target i image)) ∧
    (∀ d ∈ result.1.images, ∃ i image, i < reached ∧ m.candidates[i]? = some image ∧
      d.destination = target i image) ∧
    ∀ l content modified, result.2.2.get? l = some (.file content modified) →
      files.get? l = some (.file content modified) ∨ ∃ i image, i < reached ∧
        m.candidates[i]? = some image ∧
        StandsAt (m.jobAfter plan files clock i).files (target i image) l := by
  intro reached result target
  have hrun := run_download files clock answer hplan
  have htraced := traced_jobAfter m plan files clock
    (attempts_le answer m.candidates.length)
  have hreport : result.1.images = (m.jobAfter plan files clock reached).written := by
    simp only [result, hrun, images_reportAfter]
    rfl
  have hafter : result.2.2 = (m.jobAfter plan files clock reached).files := by
    simp only [result, hrun]
    rfl
  rw [hreport, hafter]
  exact ⟨fun i image => Job.liesBelow_target_iff plan clock i _ image,
    fun i image => Job.liesBelow_target plan clock i _ image, htraced.written, htraced.files⟩

/-- Two images that are named by one name stay below the destination. -/
theorem download_confined_sample :
    let result := ((sampleMover "x").download sampleFiles sampleClock).run (fun _ => false) 0
    result.1.1.images.length = 2 ∧
      ∀ d ∈ result.1.1.images, (⟨"out"⟩ : Path).LiesBelow d.destination := by
  intro result
  refine ⟨by decide +kernel, fun d hd => ?_⟩
  obtain ⟨-, hname, hwritten, -⟩ := download_confined (sampleMover "x") (samplePlan "x")
    sampleFiles sampleClock (fun _ => false) rfl
  obtain ⟨i, image, -, himage, hdestination⟩ := hwritten d hd
  rw [hdestination]
  exact hname i image (isName_render_sample (by decide) himage)

/-- Images that are named by a way up leave the destination. -/
theorem download_not_confined :
    ∃ d ∈ (((sampleMover "../x").download sampleFiles sampleClock).run
        (fun _ => false) 0).1.1.images, ¬ (⟨"out"⟩ : Path).LiesBelow d.destination := by
  refine ⟨⟨"card/a", .epoch, ⟨"out/../x"⟩⟩, by decide +kernel, ?_⟩
  rintro ⟨names, -, -, hcomponents⟩
  have hup : Path.Component.parent ∈ (Path.mk "out").components ++ names.map .name := by
    rw [← hcomponents]
    decide
  have hroot : Path.Component.parent ∉ (Path.mk "out").components := by decide
  simp [hroot] at hup

end Mover

end PhotoIntake
