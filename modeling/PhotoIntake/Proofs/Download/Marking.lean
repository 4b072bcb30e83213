import PhotoIntake.Proofs.Download.Reporting
import PhotoIntake.Proofs.Download.Resumption

/-!
# What a download takes out of the candidates

A download goes through the candidates as they were at its start, while it marks and deselects in
the working set what it has written.  So when it ends, those candidates are left that it does not
report: the ones that failed, and the ones that it did not come to.

* `mover_jobAfter`: after some attempts the mover is the one in which what was written is marked.
* `candidates_foldl_written` and `images_foldl_written`: what such marks do to the candidates and to
  the images of the working set, place by place.
* `selection` and `attempted`: the images that a download is about, and those that it attempts.
* `download_takes_reported`: what a download leaves, and what another one then attempts.
-/

namespace PhotoIntake

/-- The image as it is once it was written: marked with the place and the time, and not selected
any more. -/
def Downloaded.mark (d : Downloaded) (image : Image) : Image :=
  { image with mark := .marked d.destination.text d.time, isSelected := false }

namespace Mover

variable {m : Mover} {plan : Plan} {files : FileTree} {clock : Clock} {answer : Nat → Bool}
  {ds : List Downloaded}

/-! ## Marks in turn -/

theorem workingSet_written (m : Mover) (d : Downloaded) :
    (m.written d).workingSet = m.workingSet.change d.key d.mark :=
  rfl

/-- Nothing but the marks of what was written and the sequences changes in a mover. -/
theorem mover_jobAfter (m : Mover) (plan : Plan) (files : FileTree) (clock : Clock) {n : Nat}
    (hn : n ≤ m.candidates.length) :
    ∃ sequences, (m.jobAfter plan files clock n).mover =
      { (m.jobAfter plan files clock n).written.foldl written m with sequences } := by
  refine attempts_induction (P := fun n => ∃ sequences, (m.jobAfter plan files clock n).mover =
      { (m.jobAfter plan files clock n).written.foldl written m with sequences })
    ⟨m.sequences, rfl⟩ (fun i image himage ih => ?_) hn
  obtain ⟨sequences, hmover⟩ := ih
  rcases jobAfter_succ_cases m plan files clock himage with ⟨-, files', hjob⟩ | ⟨-, files', hjob⟩
  all_goals rw [hjob]
  · rw [List.foldl_append, hmover]
    exact ⟨_, rfl⟩
  · rw [hmover]
    exact ⟨_, rfl⟩

/-- What was marked is no candidate any more, and the others stay in their order. -/
theorem candidates_foldl_written (m : Mover) (ds : List Downloaded) :
    (ds.foldl written m).candidates =
      m.candidates.filter fun image => image.key ∉ ds.map Downloaded.key := by
  induction ds generalizing m with
  | nil => simp
  | cons d rest ih =>
    rw [List.foldl_cons, ih, candidates_written, List.filter_filter]
    refine List.filter_congr fun image _ => ?_
    simp [Bool.and_comm]

/-- The image after the marks of what was written. -/
def markedBy (ds : List Downloaded) (image : Image) : Image :=
  match ds.find? (·.key == image.key) with
  | some d => d.mark image
  | none => image

theorem markedBy_of_not_mem {image : Image} (h : image.key ∉ ds.map Downloaded.key) :
    markedBy ds image = image := by
  have hnone : ds.find? (·.key == image.key) = none := List.find?_eq_none.2 fun d hd heq =>
    h (beq_iff_eq.1 heq ▸ List.mem_map_of_mem hd)
  rw [markedBy, hnone]

theorem markedBy_cons (d : Downloaded) (rest : List Downloaded) (image : Image) :
    markedBy (d :: rest) image = if d.key = image.key then d.mark image else markedBy rest image := by
  unfold markedBy
  by_cases hkey : d.key = image.key <;> simp [hkey]

theorem markedBy_of_mem (hapart : (ds.map Downloaded.key).Nodup) {d : Downloaded} (hd : d ∈ ds)
    {image : Image} (hkey : d.key = image.key) : markedBy ds image = d.mark image := by
  induction ds with
  | nil => cases hd
  | cons first rest ih =>
    rw [List.map_cons, List.nodup_cons] at hapart
    rw [markedBy_cons]
    rcases List.mem_cons.1 hd with rfl | hrest
    · rw [if_pos hkey]
    · have hfirst : first.key ≠ image.key := fun heq =>
        hapart.1 (heq.trans hkey.symm ▸ List.mem_map_of_mem hrest)
      rw [if_neg hfirst, ih hapart.2 hrest]

/-- Every image of the working set gets the mark of its key, if there is one. -/
theorem images_foldl_written (m : Mover) (hapart : (ds.map Downloaded.key).Nodup) :
    (ds.foldl written m).workingSet.images = m.workingSet.images.map (markedBy ds) := by
  induction ds generalizing m with
  | nil => exact (List.map_id _).symm
  | cons d rest ih =>
    rw [List.map_cons, List.nodup_cons] at hapart
    rw [List.foldl_cons, ih _ hapart.2, workingSet_written]
    show (m.workingSet.images.map _).map _ = _
    rw [List.map_map]
    refine List.map_congr_left fun image _ => ?_
    rw [Function.comp_apply, markedBy_cons]
    -- What is marked first stays so: no later mark has its key.
    by_cases hkey : image.key = d.key
    · rw [if_pos hkey, if_pos hkey.symm]
      have hrest : (d.mark image).key ∉ rest.map Downloaded.key := hkey ▸ hapart.1
      exact markedBy_of_not_mem hrest
    · rw [if_neg hkey, if_neg (Ne.symm hkey)]

/-! ## What a download attempts -/

/-- The images that a download is about: the candidates, if it knows where they go. -/
def selection (m : Mover) : List Image :=
  if m.plan?.isSome then m.candidates else []

/-- The images that a download attempts before the first question that is answered yes. -/
def attempted (m : Mover) (answer : Nat → Bool) : List Image :=
  m.selection.take (attempts answer m.selection.length)

theorem selection_of_planned (hplan : m.plan? = some plan) : m.selection = m.candidates := by
  rw [selection, hplan, Option.isSome_some, if_pos rfl]

theorem selection_of_not_planned (hplan : m.plan? = none) : m.selection = [] := by
  rw [selection, hplan, Option.isSome_none, if_neg Bool.false_ne_true]

theorem run_download_of_not_planned (hplan : m.plan? = none) (files : FileTree) (clock : Clock)
    (answer : Nat → Bool) : (m.download files clock).run answer 0 =
      ((.completed [], m, files), [.selected 0]) := by
  unfold download
  rw [hplan]
  rfl

@[simp] theorem length_attempted (m : Mover) (answer : Nat → Bool) :
    (m.attempted answer).length = attempts answer m.selection.length :=
  List.length_take_of_le (attempts_le answer _)

/-- A download tells how many images it is about, and counts those that it attempts. -/
theorem events_download (m : Mover) (files : FileTree) (clock : Clock) (answer : Nat → Bool) :
    ((m.download files clock).run answer 0).2 =
      .selected m.selection.length ::
        (List.range' 1 (m.attempted answer).length).map .processed := by
  rw [length_attempted]
  cases hplan : m.plan? with
  | none => rw [run_download_of_not_planned hplan, selection_of_not_planned hplan]; rfl
  | some plan => rw [run_download files clock answer hplan, selection_of_planned hplan]

/-- It does what the attempts at these images do in turn. -/
theorem run_download_attempted (hplan : m.plan? = some plan) (files : FileTree) (clock : Clock)
    (answer : Nat → Bool) :
    let run := (m.download files clock).run answer 0
    let job := Job.transferEach plan clock 0 (m.attempted answer) ⟨m, files, []⟩
    run.1.1.images = job.written ∧ run.1.2 = (job.mover, job.files) := by
  intro run job
  have hjob : job = m.jobAfter plan files clock (attempts answer m.candidates.length) := by
    rw [jobAfter, ← selection_of_planned hplan]
    rfl
  rw [show run = _ from run_download files clock answer hplan, hjob, images_reportAfter]
  exact ⟨rfl, rfl⟩

/-- Without images to attempt a download changes nothing. -/
theorem run_download_of_nothing (hnone : m.selection = []) (files : FileTree) (clock : Clock)
    (answer : Nat → Bool) : (m.download files clock).run answer 0 =
      ((.completed [], m, files), [.selected 0]) := by
  cases hplan : m.plan? with
  | none => exact run_download_of_not_planned hplan files clock answer
  | some plan =>
    rw [selection_of_planned hplan] at hnone
    unfold download
    rw [hplan, hnone]
    rfl

/-! ## What a download leaves -/

/-- What a download reports is among what it attempts, in the same order; its marks are all that
happens to the candidates and to the working set. -/
theorem marks_of_download (m : Mover) (files : FileTree) (clock : Clock) (answer : Nat → Bool) :
    let run := (m.download files clock).run answer 0
    (run.1.1.images.map Downloaded.key).Sublist ((m.attempted answer).map Image.key) ∧
      run.1.2.1.plan? = m.plan? ∧
      ∃ sequences, run.1.2.1 = { run.1.1.images.foldl written m with sequences } := by
  intro run
  cases hplan : m.plan? with
  | none =>
    rw [show run = _ from run_download_of_not_planned hplan files clock answer]
    exact ⟨List.nil_sublist _, hplan, m.sequences, rfl⟩
  | some plan =>
    have hle := attempts_le answer m.candidates.length
    rw [show run = _ from run_download files clock answer hplan, attempted,
      selection_of_planned hplan]
    simp only [images_reportAfter]
    exact ⟨(reported_jobAfter m plan files clock hle).1, (plan?_jobAfter hle).trans hplan,
      mover_jobAfter m plan files clock hle⟩

theorem selection_sublist (m : Mover) : m.selection.Sublist m.candidates := by
  unfold selection
  split_ifs
  · exact List.Sublist.refl _
  · exact List.nil_sublist _

/-- Of images with keys of their own, those that are not reported are the ones that were attempted
without success, and the ones behind. -/
theorem filter_not_reported {images : List Image} {reported : List ImageKey} {k : Nat}
    (hapart : (images.map Image.key).Nodup)
    (hreported : reported.Sublist ((images.take k).map Image.key)) :
    images.filter (fun image => image.key ∉ reported) =
      (images.take k).filter (fun image => image.key ∉ reported) ++ images.drop k := by
  rw [← List.take_append_drop k images, List.map_append, List.nodup_append] at hapart
  have hbehind : ∀ image ∈ images.drop k, image.key ∉ reported := fun image himage hmem =>
    hapart.2.2 _ (hreported.subset hmem) _ (List.mem_map_of_mem himage) rfl
  conv_lhs => rw [← List.take_append_drop k images, List.filter_append]
  congr 1
  exact List.filter_eq_self.2 fun image himage => decide_eq_true (hbehind image himage)

/-- A download takes those images out of the candidates that it reports, and leaves the others in
their order.  In the working set it deselects what it reports and marks it with the place and the
time of the report; every other image stays as it is, and all of them stay in their places.  Another
download is then about the images that failed and those that the first one did not come to, and it
attempts these in turn, up to the first question that is answered yes.  If all were reported, there
is nothing for it to do. -/
theorem download_takes_reported (m : Mover) (files : FileTree) (clock : Clock)
    (answer : Nat → Bool) (hkeys : m.workingSet.KeysApart) :
    let run := (m.download files clock).run answer 0
    let report := run.1.1
    let after := run.1.2.1
    let reported := report.images.map Downloaded.key
    let failed := (m.attempted answer).filter fun image => image.key ∉ reported
    let unreached := m.selection.drop (attempts answer m.selection.length)
    reported.Sublist ((m.attempted answer).map Image.key) ∧
    after.candidates = m.candidates.filter (fun image => image.key ∉ reported) ∧
    after.workingSet.size = m.workingSet.size ∧
    (∀ (i : Nat) (image : Image), m.workingSet.images[i]? = some image →
      (∀ d ∈ report.images, d.key = image.key → after.workingSet.images[i]? =
        some { image with
          mark := .marked d.destination.text d.time
          isSelected := false }) ∧
      (image.key ∉ reported → after.workingSet.images[i]? = some image)) ∧
    after.selection = failed ++ unreached ∧
    ∀ (files' : FileTree) (clock' : Clock) (answer' : Nat → Bool),
      let again := (after.download files' clock').run answer' 0
      let attempted := (failed ++ unreached).take (attempts answer' (failed ++ unreached).length)
      again.2 = .selected (failed ++ unreached).length ::
        (List.range' 1 attempted.length).map .processed ∧
      (∀ plan, m.plan? = some plan →
        let job := Job.transferEach plan clock' 0 attempted ⟨after, files', []⟩
        again.1.1.images = job.written ∧ again.1.2 = (job.mover, job.files)) ∧
      ((∀ image ∈ m.selection, image.key ∈ reported) →
        again = ((.completed [], after, files'), [.selected 0])) := by
  intro run report after reported failed unreached
  obtain ⟨hreported, hplan, sequences, hafter⟩ := marks_of_download m files clock answer
  have hapart : (m.selection.map Image.key).Nodup :=
    (nodup_keys_candidates hkeys).sublist (m.selection_sublist.map Image.key)
  have hnodup : reported.Nodup :=
    hapart.sublist (hreported.trans ((List.take_sublist _ _).map Image.key))
  have hcandidates : after.candidates = m.candidates.filter fun image => image.key ∉ reported :=
    (congrArg candidates hafter).trans (candidates_foldl_written m _)
  have himages : after.workingSet.images = m.workingSet.images.map (markedBy report.images) :=
    (congrArg (·.workingSet.images) hafter).trans (images_foldl_written m hnodup)
  have hkept : after.selection = m.selection.filter fun image => image.key ∉ reported := by
    unfold selection
    rw [show after.plan? = m.plan? from hplan, hcandidates]
    split_ifs <;> rfl
  have hleft : after.selection = failed ++ unreached :=
    hkept.trans (filter_not_reported hapart hreported)
  refine ⟨hreported, hcandidates, ?_, fun i image himage => ⟨fun d hd hkey => ?_, fun hother => ?_⟩,
    hleft, fun files' clock' answer' => ?_⟩
  · rw [WorkingSet.size, himages, List.length_map, WorkingSet.size]
  · rw [himages, List.getElem?_map, himage, Option.map_some, markedBy_of_mem hnodup hd hkey]
    rfl
  · rw [himages, List.getElem?_map, himage, Option.map_some, markedBy_of_not_mem hother]
  · have hattempted : after.attempted answer' =
        (failed ++ unreached).take (attempts answer' (failed ++ unreached).length) := by
      rw [← hleft]
      rfl
    refine ⟨?_, fun plan hplanned => ?_, fun hall => ?_⟩
    · rw [← hattempted, ← hleft]
      exact events_download after files' clock' answer'
    · rw [← hattempted]
      exact run_download_attempted (hplan.trans hplanned) files' clock' answer'
    · refine run_download_of_nothing ?_ files' clock' answer'
      rw [hkept, List.filter_eq_nil_iff]
      exact fun image himage => by simpa using hall image himage

/-- A mover of an image that is not there, and of the two on the card. -/
def sampleGap : Mover :=
  { sampleMover "x" with
    workingSet := ⟨["card/missing", "card/a", "card/b"].map sampleImage⟩ }

/-- The first image fails, and the download stops before the third one; another download attempts
these two. -/
theorem download_takes_reported_sample :
    let run := (sampleGap.download sampleFiles sampleClock).run (Dialogue.stopAfter (some 2)) 0
    let after := run.1.2.1
    let again := (after.download run.1.2.2 sampleClock).run (Dialogue.stopAfter none) 0
    sampleGap.workingSet.KeysApart ∧ run.1.1.images.map Downloaded.key = ["card/a"] ∧
      after.candidates = ["card/missing", "card/b"].map sampleImage ∧
      after.workingSet.images[1]? = some { sampleImage "card/a" with
        mark := .marked "out/x-1" .epoch
        isSelected := false } ∧
      again.2 = [.selected 2, .processed 1, .processed 2] := by
  intro run after again
  have hkeys : sampleGap.workingSet.KeysApart := by
    unfold WorkingSet.KeysApart
    decide
  have himages : run.1.1.images = [⟨"card/a", .epoch, ⟨"out/x-1"⟩⟩] := by decide +kernel
  obtain ⟨-, hcandidates, -, hplaces, -, hagain⟩ := download_takes_reported sampleGap sampleFiles
    sampleClock (Dialogue.stopAfter (some 2)) hkeys
  obtain ⟨hevents, -, -⟩ := hagain run.1.2.2 sampleClock (Dialogue.stopAfter none)
  refine ⟨hkeys, by rw [himages]; rfl, ?_, ?_, ?_⟩
  · rw [hcandidates, show run.1.1.images = _ from himages]
    decide
  · refine (hplaces 1 (sampleImage "card/a") rfl).1 ⟨"card/a", .epoch, ⟨"out/x-1"⟩⟩ ?_ rfl
    rw [show run.1.1.images = _ from himages]
    exact List.mem_singleton_self _
  · rw [show again.2 = _ from hevents, show run.1.1.images = _ from himages]
    decide +kernel

end Mover

end PhotoIntake
