import PhotoIntake.Proofs.Download.Effects
import PhotoIntake.Proofs.Download.Numbering

/-!
# Previewed names

A preview names its image at the counters in force, and so does the download that follows.  Previews
may load the counters and may begin a new day, but they show the same counters ever after, so the
first candidate gets the name and the folder that were previewed for it.

* `preview_eq`: what a preview shows, in the terms of the plan of a download.
* `Looked` is the invariant of previews, and `looked_lookAll` carries it through any number of them.
* `download_commits_preview`: the first attempt of a download goes where the preview said.
-/

namespace PhotoIntake.Mover

open Calendar (Date DateTime)
open Naming (Occasion)

variable {m m' : Mover} {plan : Plan} {clock : Clock} {today : Date} {c : Counters}

/-! ## Looking -/

/-- What can be looked at before a download. -/
inductive Look where
  | image (sample : Image)
  | folders
  deriving DecidableEq

/-- The mover after something was looked at. -/
def look (t : FileTree) (clock : Clock) (m : Mover) : Look → Mover
  | .image sample => (m.preview t clock sample).2
  | .folders => (m.folders t clock).2

/-- The mover after a series of looks. -/
def lookAll (m : Mover) (t : FileTree) (clock : Clock) (looks : List Look) : Mover :=
  looks.foldl (look t clock) m

/-- Whatever is looked at, the mover looks at its counters, or at nothing. -/
theorem look_cases (m : Mover) (t : FileTree) (clock : Clock) (l : Look) :
    look t clock m l = { m with sequences := (m.sequences.snapshot t (clock.day 0)).2 } ∨
      look t clock m l = m := by
  cases l with
  | image sample =>
    unfold look
    rcases preview_cases m t clock sample with ⟨preview, h⟩ | h
    · exact Or.inl (congrArg Prod.snd h)
    · exact Or.inr (congrArg Prod.snd h)
  | folders =>
    unfold look
    rcases folders_cases m t clock with ⟨folders, h⟩ | h
    · exact Or.inl (congrArg Prod.snd h)
    · exact Or.inr (congrArg Prod.snd h)

/-- A preview of a planned download shows the name and the folder that the plan gives the image at
the counters in force. -/
theorem preview_eq (hplan : m.plan? = some plan) (t : FileTree) (clock : Clock) (sample : Image) :
    let o : Occasion := ⟨sample, (m.sequences.snapshot t (clock.day 0)).1, clock.now⟩
    m.preview t clock sample =
      (some ⟨plan.imageTemplate.render o .image, (plan.folder o).text⟩,
        { m with sequences := (m.sequences.snapshot t (clock.day 0)).2 }) := by
  intro o
  obtain ⟨hdestination, himage, hfolder⟩ := plan?_eq_some hplan
  unfold preview folderOf
  rw [himage, hfolder, hdestination]
  rfl

/-! ## What looking keeps -/

/-- The second mover is the first one after looks on a day: all but the sequences is the same, and
the counters show the given ones from any files. -/
structure Looked (m : Mover) (today : Date) (c : Counters) (m' : Mover) : Prop where
  rest : m' = { m with sequences := m'.sequences }
  counters : ∀ t, (m'.sequences.snapshot t today).1 = c

namespace Looked

theorem plan?_eq (h : m.Looked today c m') : m'.plan? = m.plan? := by
  rw [h.rest]
  rfl

theorem candidates_eq (h : m.Looked today c m') : m'.candidates = m.candidates := by
  rw [h.rest]
  rfl

theorem mode_eq (h : m.Looked today c m') : m'.mode = m.mode := by
  rw [h.rest]

/-- One look more keeps the counters that are shown. -/
theorem look (h : m.Looked today c m') (hday : clock.day 0 = today) (t : FileTree) (l : Look) :
    m.Looked today c (look t clock m' l) := by
  rcases look_cases m' t clock l with hlook | hlook
  · rw [hlook, hday]
    refine ⟨?_, fun t' => ?_⟩
    · conv_lhs => rw [h.rest]
    · rw [Sequences.snapshot_again]
      exact h.counters t
  · rw [hlook]
    exact h

/-- Any number of looks keeps them. -/
theorem lookAll (h : m.Looked today c m') (hday : clock.day 0 = today) (t : FileTree)
    (looks : List Look) : m.Looked today c (m'.lookAll t clock looks) := by
  induction looks generalizing m' with
  | nil => exact h
  | cons l rest ih => exact ih (h.look hday t l)

/-- The first attempt of a download names its image at the counters that are shown. -/
theorem target_eq (h : m.Looked today c m') (plan : Plan) (files : FileTree) (now : DateTime)
    (image : Image) : Job.target plan (Clock.fixed now today) 0 ⟨m', files, []⟩ image =
      plan.target files ⟨image, c, now⟩ := by
  show plan.target files ⟨image, (m'.sequences.snapshot files today).1, now⟩ = _
  rw [h.counters files]

end Looked

/-- The preview of a planned download loads the counters and begins the day, if need be; after it
they are settled. -/
theorem looked_preview (hplan : m.plan? = some plan) (hday : clock.day 0 = today) (t : FileTree)
    (sample : Image) :
    m.Looked today (m.sequences.snapshot t today).1 (m.preview t clock sample).2 := by
  rw [preview_eq hplan, hday]
  exact ⟨rfl, fun t' => Sequences.snapshot_again m.sequences t t' today⟩

/-! ## The first attempt -/

/-- The first attempt of a download is at the first candidate. -/
theorem jobAfter_one (plan : Plan) (files : FileTree) (clock : Clock) {image : Image}
    (hfirst : m.candidates[0]? = some image) :
    m.jobAfter plan files clock 1 = Job.transferImage plan clock 0 ⟨m, files, []⟩ image :=
  jobAfter_succ m plan files clock hfirst

/-- The first image of a report is the first candidate, if its attempt has succeeded. -/
theorem head_written (files : FileTree) (hday : ∀ reading, clock.day reading = today)
    {image : Image} (hfirst : m.candidates[0]? = some image)
    (hsucceeds : m.attemptSucceeds plan files clock 0 = true) {k : Nat} (hk : 0 < k)
    (hle : k ≤ m.candidates.length) :
    (m.jobAfter plan files clock k).written[0]? =
      some (m.entryAt plan files clock (m.sequences.snapshot files today).1 0 image) := by
  have hsuccesses : (m.successes plan files clock k)[0]? = some 0 := by
    obtain ⟨k, rfl⟩ := Nat.exists_eq_add_one_of_ne_zero (by omega : k ≠ 0)
    rw [successes, List.range_succ_eq_map, List.filter_cons_of_pos hsucceeds]
    rfl
  obtain ⟨image', himage', hwritten⟩ :=
    (counted_jobAfter m plan files hday hle).written 0 0 hsuccesses
  obtain rfl : image = image' := Option.some.inj (hfirst.symm.trans himage')
  exact hwritten

/-- A download that is not stopped before its first image makes at least one attempt. -/
theorem one_le_attempts {answer : Nat → Bool} (hanswer : answer 0 = false) {candidates : Nat}
    (hcandidates : 0 < candidates) : 1 ≤ attempts answer candidates := by
  obtain ⟨n, rfl⟩ := Nat.exists_eq_add_one_of_ne_zero (by omega : candidates ≠ 0)
  rw [attempts, List.range_succ_eq_map, List.takeWhile_cons_of_pos (by simp [hanswer])]
  simp

/-- So the report of such a download begins with the first candidate, if its attempt succeeds. -/
theorem images_download_head (hplan : m.plan? = some plan) (files : FileTree)
    (hday : ∀ reading, clock.day reading = today) {answer : Nat → Bool} (hanswer : answer 0 = false)
    {image : Image} (hfirst : m.candidates[0]? = some image)
    (hsucceeds : m.attemptSucceeds plan files clock 0 = true) :
    ∃ others, ((m.download files clock).run answer 0).1.1.images =
      m.entryAt plan files clock (m.sequences.snapshot files today).1 0 image :: others := by
  have hcount : 0 < m.candidates.length := (List.getElem?_eq_some_iff.1 hfirst).1
  have hrun := run_download files clock answer hplan
  have hhead := head_written files hday hfirst hsucceeds
    (one_le_attempts hanswer hcount) (attempts_le _ _)
  rw [(congrArg (fun r => r.1.1.images) hrun).trans (images_reportAfter m plan files clock _)]
  apply List.head?_eq_some_iff.1
  rw [List.head?_eq_getElem?, hhead]

/-- With the destination and both templates set, the first candidate has a preview.  Whatever is
previewed after it, a download on this day that is not stopped before its first image attempts this
candidate first, in the previewed folder.  If nothing is there under the previewed name, the attempt
goes to exactly that name, and if it succeeds, this is the destination in the report. -/
theorem download_commits_preview (m : Mover) (plan : Plan) (t files : FileTree) (now : DateTime)
    (today : Date) (looks : List Look) (answer : Nat → Bool) (image : Image)
    (hplan : m.plan? = some plan) (hfirst : m.candidates.head? = some image)
    (hanswer : answer 0 = false) :
    let clock := Clock.fixed now today
    ∃ preview : Preview, (m.preview t clock image).1 = some preview ∧
      let folder : Path := ⟨preview.folder⟩
      let target := folder.join ⟨preview.name⟩
      let m' := (m.preview t clock image).2.lookAll t clock looks
      let result := (m'.download files clock).run answer 0
      let first := m'.jobAfter plan files clock 1
      (∃ attempts, 1 ≤ attempts ∧ result.1.1 = m'.reportAfter plan files clock attempts ∧
        result.2 = .selected m.candidates.length :: (List.range' 1 attempts).map .processed) ∧
      first = Job.transferImage plan clock 0 ⟨m', files, []⟩ image ∧
      first.files = (Transfer.run m.mode image.source
        (folder.join ⟨Transfer.freeName files folder preview.name⟩)).treeAfter files ∧
      (files.isThere target = false →
        first.files = (Transfer.run m.mode image.source target).treeAfter files ∧
        ((Transfer.run m.mode image.source target).succeeds files = true →
          ∃ others, result.1.1.images = ⟨image.key, now, target⟩ :: others)) := by
  intro clock
  let c := (m.sequences.snapshot t today).1
  let o : Occasion := ⟨image, c, now⟩
  have hpreview := preview_eq hplan t clock image
  refine ⟨⟨plan.imageTemplate.render o .image, (plan.folder o).text⟩,
    congrArg Prod.fst hpreview, ?_⟩
  intro folder target m' result first
  have hday (reading : Nat) : clock.day reading = today := rfl
  have hlooked : m.Looked today c m' :=
    (looked_preview hplan (hday 0) t image).lookAll (hday 0) t looks
  have hplan' : m'.plan? = some plan := hlooked.plan?_eq.trans hplan
  have hfirst' : m'.candidates[0]? = some image := by
    rw [hlooked.candidates_eq, ← List.head?_eq_getElem?]
    exact hfirst
  have hcount : 0 < m'.candidates.length := (List.getElem?_eq_some_iff.1 hfirst').1
  have hrun := run_download files clock answer hplan'
  have hjob : first = Job.transferImage plan clock 0 ⟨m', files, []⟩ image :=
    jobAfter_one plan files clock hfirst'
  -- The counters of the attempt are those of the preview, so it goes to the previewed folder.
  have htarget : Job.target plan clock 0 ⟨m', files, []⟩ image =
      folder.join ⟨Transfer.freeName files folder (plan.imageTemplate.render o .image)⟩ :=
    hlooked.target_eq plan files now image
  have hfiles : first.files = (Transfer.run m.mode image.source (folder.join
      ⟨Transfer.freeName files folder (plan.imageTemplate.render o .image)⟩)).treeAfter files := by
    rw [hjob, ← htarget, ← hlooked.mode_eq]
    exact Job.files_transferImage plan clock 0 ⟨m', files, []⟩ image
  refine ⟨⟨_, one_le_attempts hanswer hcount, ?_, ?_⟩, hjob, hfiles, fun hfree => ?_⟩
  · exact congrArg (fun r => r.1.1) hrun
  · rw [← hlooked.candidates_eq]
    exact congrArg (fun r => r.2) hrun
  have hname : Transfer.freeName files folder (plan.imageTemplate.render o .image) =
      plan.imageTemplate.render o .image := by
    unfold Transfer.freeName
    exact if_neg (by rw [hfree]; exact Bool.false_ne_true)
  rw [hname] at hfiles htarget
  refine ⟨hfiles, fun hsucceeds => ?_⟩
  have hattempt : m'.attemptSucceeds plan files clock 0 = true := by
    unfold attemptSucceeds
    rw [hfirst', ← hsucceeds, ← hlooked.mode_eq]
    exact congrArg (fun p => (Transfer.run m'.mode image.source p).succeeds files) htarget
  obtain ⟨others, himages⟩ := images_download_head hplan' files hday hanswer hfirst' hattempt
  exact ⟨others, himages.trans (congrArg (Downloaded.mk image.key now · :: others) htarget)⟩

/-- The folders and the second image are looked at after the preview of the first one, which is then
moved to the previewed name. -/
theorem download_commits_preview_sample :
    let m := sampleMover "y"
    let looks : List Look := [.folders, .image (sampleImage "card/b")]
    let m' := (m.preview sampleFiles sampleClock (sampleImage "card/a")).2.lookAll sampleFiles
      sampleClock looks
    let result := (m'.download sampleFiles sampleClock).run (fun _ => false) 0
    ∃ preview : Preview,
      (m.preview sampleFiles sampleClock (sampleImage "card/a")).1 = some preview ∧
        preview.folder = "out" ∧ preview.name = "y" ∧
        ∃ others, result.1.1.images = ⟨"card/a", .epoch, ⟨"out/y"⟩⟩ :: others := by
  intro m looks m' result
  obtain ⟨preview, hpreview, -, -, -, hcommitted⟩ :=
    download_commits_preview m (samplePlan "y") sampleFiles sampleFiles .epoch .epoch looks
      (fun _ => false) (sampleImage "card/a") rfl rfl rfl
  have hshown : (m.preview sampleFiles sampleClock (sampleImage "card/a")).1 =
      some ⟨"y", "out"⟩ := by decide +kernel
  obtain rfl : preview = ⟨"y", "out"⟩ := Option.some.inj (hpreview.symm.trans hshown)
  refine ⟨_, hpreview, rfl, rfl, ?_⟩
  have hfree : sampleFiles.isThere ⟨"out/y"⟩ = false := by decide +kernel
  exact (hcommitted hfree).2 (by decide +kernel)

end PhotoIntake.Mover
