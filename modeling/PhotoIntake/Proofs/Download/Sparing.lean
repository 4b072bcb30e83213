import PhotoIntake.Proofs.Download.Attempts
import PhotoIntake.Proofs.Download.Delivery
import PhotoIntake.Proofs.FileTree.Indifference
import PhotoIntake.Proofs.Sequence.Rollover

/-!
# Downloads that spare a file

A download that has nothing to do with the file of the counters goes the same way whatever is in
this file, and whether it is there or not.

* `ignores_run`: a transfer whose two paths bypass a location ignores the file that is there.
* `freeName_eq`: nor does the file make a difference to the name of the target.
* `Job.Spares`: an attempt of a download has nothing to do with the file.
* `Alike` relates two movers with their files.  `Alike.transferImage` carries it through an attempt,
  `Alike.jobAfter` through a whole download.
-/

namespace PhotoIntake

open Calendar (Date)

/-! ## Transfers -/

namespace Transfer

open FileTree FileAction

variable {mode : TransferMode} {source target folder : Path} {t t' : FileTree} {l : Location}
  {name : String}

theorem ignores_prepare (hover : ¬ ((prepare target).treeAfter t).Passes l target) :
    Ignores l (prepare target) t := by
  unfold prepare at hover ⊢
  cases houter : target.parentComponents? with
  | none => exact .pure ()
  | some outer =>
    rw [houter] at hover
    obtain ⟨c, hc⟩ := Path.exists_components_of_parentComponents? houter
    have hcanonical := Path.canonical_of_parentComponents? houter
    refine ignores_createFolders ?_ hover
    rw [Path.components_ofComponents hcanonical, hc]
    exact List.prefix_append outer [c]

/-- A file that was put somewhere opens no way. -/
theorem passes_of_filePut {k : Location} {p : Path} (hput : FilePut k t t') (h : t'.Passes l p) :
    t.Passes l p := by
  have hsame {j : Location} {e : Entry} (hget : t'.get? j = some e)
      (he : ∀ content modified, e ≠ .file content modified) : t.get? j = some e := by
    have hjk : j ≠ k := by
      rintro rfl
      obtain ⟨content, modified, hfile⟩ := hput.file
      exact he content modified (Option.some.inj (hget.symm.trans hfile))
    rw [← hput.get?_of_ne j hjk, hget]
  unfold Passes at h ⊢
  rw [hput.working] at h
  exact h.mono (fun j hj => hsame hj (by simp)) fun j link hj => hsame hj (by simp)

theorem ignores_copyThenRemove (hsource : ¬ t.Passes l source) (htarget : ¬ t.Passes l target) :
    Ignores l (copyThenRemove source target) t := by
  refine .bind (ignores_copyFile hsource htarget) fun _ u hcopy => ?_
  refine .tryCatch (ignores_removeFile ?_) fun _ _ _ => .pure ()
  rw [← treeAfter_of_runOn hcopy]
  rcases copyFile_cases source target t with ⟨hsame, -⟩ | ⟨k, entry, -, -, -, hput, -⟩
  · rwa [hsame]
  · exact fun h => hsource (passes_of_filePut hput h)

theorem ignores_deliver (hsource : t.Bypasses l source) (htarget : t.Bypasses l target) :
    Ignores l (deliver mode source target) t := by
  cases mode with
  | copy => exact ignores_copyFile hsource.notOver htarget.notOver
  | move =>
    refine .tryCatch (ignores_rename hsource htarget) fun e u hfailed => ?_
    obtain rfl := eq_of_rename_error hfailed
    exact ignores_copyThenRemove hsource.notOver htarget.notOver

/-- A transfer ignores a file if both paths bypass its location once the folders of the target are
created. -/
theorem ignores_run (mode : TransferMode)
    (hsource : ((prepare target).treeAfter t).Bypasses l source)
    (htarget : ((prepare target).treeAfter t).Bypasses l target) :
    Ignores l (run mode source target) t := by
  rw [run_eq_bind]
  refine .bind (ignores_prepare htarget.notOver) fun _ u hprepare => ?_
  rw [treeAfter_of_runOn hprepare] at hsource htarget
  exact ignores_deliver hsource htarget

/-! ## Targets -/

/-- The name of a target that does not lead over the location is chosen in both trees: it is free in
both, and what is taken in the first one is taken in the second one. -/
theorem freeName_eq (h : SameBut l t t')
    (hover : ¬ t.Passes l (folder.join ⟨freeName t folder name⟩)) :
    freeName t' folder name = freeName t folder name := by
  have htaken {p : Path} (hp : t.isThere p = true) : t'.isThere p = true := h.isThere_of_isThere hp
  have hfree := h.isThere_eq hover
  rw [isThere_freeName] at hfree
  rcases freeName_cases t folder name with ⟨-, heq⟩ | ⟨hthere, i, hi, heq, -, hleast⟩
  · rw [heq] at hfree ⊢
    rw [freeName, hfree]
    rfl
  · rw [heq] at hfree ⊢
    rcases freeName_cases t' folder name with ⟨hfree', -⟩ | ⟨-, j, hj, heq', hfree', hleast'⟩
    · rw [htaken hthere] at hfree'
      exact absurd hfree' (by simp)
    · have hij : i = j := by
        rcases Nat.lt_trichotomy i j with hlt | heq | hlt
        · rw [hleast' i hi hlt] at hfree
          exact absurd hfree (by simp)
        · exact heq
        · rw [htaken (hleast j hj hlt)] at hfree'
          exact absurd hfree' (by simp)
      rw [heq', hij]

end Transfer

/-! ## Attempts -/

namespace Mover

open Sequence (Durable)

variable {path : Path} {l : Location} {plan : Plan} {clock : Clock} {today : Date} {i : Nat}
  {image : Image}

/-- The files once the folders of the next target are created. -/
def Job.prepared (plan : Plan) (clock : Clock) (index : Nat) (job : Job) (image : Image) :
    FileTree :=
  (Transfer.prepare (job.target plan clock index image)).treeAfter job.files

/-- The next attempt has nothing to do with the file of the counters: neither the source nor the
target leads over its location, or to a folder around it.  After the attempt the path of the file
still leads there, and the counters are still words of 32 bits. -/
structure Job.Spares (path : Path) (l : Location) (plan : Plan) (clock : Clock) (index : Nat)
    (job : Job) (image : Image) : Prop where
  source : (job.prepared plan clock index image).Bypasses l image.source
  target : (job.prepared plan clock index image).Bypasses l (job.target plan clock index image)
  leads : (Job.transferImage plan clock (2 * index) job image).files.Leads path l
  words : ∀ d ∈ (Job.transferImage plan clock (2 * index) job image).mover.sequences.durable,
    d.InWords

/-- The movers are the same but for their sequences, which are twins, and the files are the same but
for the one of the counters. -/
structure Alike (path : Path) (l : Location) (today : Date) (m m' : Mover)
    (files files' : FileTree) : Prop where
  mover : m' = { m with sequences := m'.sequences }
  trees : files.SameBut l files'
  leads : files.Leads path l
  twins : Sequences.Twins path l files files' today m.sequences m'.sequences

namespace Alike

variable {m m' : Mover} {files files' : FileTree} {job job' : Job}

theorem plan?_eq (h : Alike path l today m m' files files') : m'.plan? = m.plan? := by
  rw [h.mover]
  rfl

theorem candidates_eq (h : Alike path l today m m' files files') :
    m'.candidates = m.candidates := by
  rw [h.mover]
  rfl

theorem mono {later : Date} (h : Alike path l today m m' files files') (hday : ¬ later < today) :
    Alike path l later m m' files files' :=
  ⟨h.mover, h.trees, h.leads, h.twins.mono hday⟩

/-- Looks at the counters show the same. -/
theorem snapshot (h : Alike path l today m m' files files') (hyear : 0 ≤ today.year) :
    (m'.sequences.snapshot files' today).1 = (m.sequences.snapshot files today).1 ∧
      Sequences.Twins path l files files' today (m.sequences.snapshot files today).2
        (m'.sequences.snapshot files' today).2 :=
  h.twins.snapshot hyear fun hnone =>
    Durable.read?_of_nothing h.leads (h.trees.stays hnone)

/-- An attempt that spares the file has the same target in both files. -/
theorem target_eq (h : Alike path l (clock.day (2 * i)) job.mover job'.mover job.files job'.files)
    (hyear : 0 ≤ (clock.day (2 * i)).year) (hspares : job.Spares path l plan clock i image) :
    job'.target plan clock i image = job.target plan clock i image := by
  have hoccasion : job'.occasion clock i image = job.occasion clock i image := by
    rw [Job.occasion, (h.snapshot hyear).1, Job.occasion]
  have hadded := Transfer.prepare_adds (job.target plan clock i image) job.files
  have hover : ¬ job.files.Passes l (job.target plan clock i image) := fun hpasses =>
    hspares.target.notOver (FileAction.passes_of_added hadded (List.prefix_refl _) hpasses)
  rw [Job.target, hoccasion]
  unfold Plan.target
  simp only [Transfer.freeName_eq h.trees hover]
  rfl

/-- An attempt that spares the file goes the same way in both. -/
theorem transferImage
    (h : Alike path l (clock.day (2 * i)) job.mover job'.mover job.files job'.files)
    (hwritten : job'.written = job.written) (hspares : job.Spares path l plan clock i image)
    (hday : ¬ clock.day (2 * i + 1) < clock.day (2 * i)) (hyear : ∀ r, 0 ≤ (clock.day r).year) :
    let after := Job.transferImage plan clock (2 * i) job image
    let after' := Job.transferImage plan clock (2 * i) job' image
    Alike path l (clock.day (2 * i + 1)) after.mover after'.mover after.files after'.files ∧
      after'.written = after.written := by
  intro after after'
  have htarget := h.target_eq (hyear _) hspares
  have hdownloaded : job'.downloaded plan clock i image = job.downloaded plan clock i image := by
    rw [Job.downloaded, htarget, Job.downloaded]
  have hmode : job'.mover.mode = job.mover.mode := by rw [h.mover]
  obtain ⟨files', hrun', htrees, hkept, hkept'⟩ :=
    Transfer.ignores_run job.mover.mode hspares.source hspares.target job'.files h.trees
  have hleads := hspares.leads
  rw [Job.files_transferImage] at hleads
  -- The counters that are read from the files are those of before.
  have hread := Durable.read?_congr h.leads h.trees.onlyFile hleads hkept
  have hread' := Durable.read?_congr (h.trees.leads h.leads) h.trees.onlyFile'
    (htrees.leads hleads) hkept'
  have htwins := ((h.snapshot (hyear _)).2.elsewhere hread hread' hkept').mono hday
  have hcases := Job.transferImage_cases plan clock i job image
  have hcases' := Job.transferImage_cases plan clock i job' image
  simp only [hmode, htarget, hdownloaded, hrun'] at hcases'
  rcases hcases with ⟨u, hrun, hafter⟩ | ⟨e, u, hrun, hafter⟩
  all_goals
    rw [hrun] at hcases'
    rw [FileAction.treeAfter_of_runOn hrun] at hleads htrees htwins
  · rcases hcases' with ⟨u', heq, hafter'⟩ | ⟨e, u', heq, -⟩
    · obtain ⟨-, rfl⟩ := Prod.mk.inj heq
      have hwords := hspares.words
      rw [hafter] at hwords
      rw [show after = _ from hafter, show after' = _ from hafter', hwritten]
      refine ⟨⟨?_, htrees, hleads, htwins.increment (hyear _) hwords⟩, rfl⟩
      rw [h.mover]
      rfl
    · simp at heq
  · rcases hcases' with ⟨u', heq, -⟩ | ⟨e', u', heq, hafter'⟩
    · simp at heq
    · obtain ⟨-, rfl⟩ := Prod.mk.inj heq
      rw [show after = _ from hafter, show after' = _ from hafter', hwritten]
      refine ⟨⟨?_, htrees, hleads, htwins⟩, rfl⟩
      rw [h.mover]

/-- A download that spares the file goes the same way in both. -/
theorem jobAfter (h : Alike path l (clock.day 0) m m' files files')
    (hday : ∀ r r', r ≤ r' → ¬ clock.day r' < clock.day r) (hyear : ∀ r, 0 ≤ (clock.day r).year)
    {k : Nat} (hk : k ≤ m.candidates.length)
    (hspares : ∀ i image, i < k → m.candidates[i]? = some image →
      (m.jobAfter plan files clock i).Spares path l plan clock i image) :
    let after := m.jobAfter plan files clock k
    let after' := m'.jobAfter plan files' clock k
    Alike path l (clock.day (2 * k)) after.mover after'.mover after.files after'.files ∧
      after'.written = after.written := by
  induction k with
  | zero =>
    rw [Mover.jobAfter, Mover.jobAfter, List.take_zero, List.take_zero]
    exact ⟨h, rfl⟩
  | succ k ih =>
    obtain ⟨halike, hwritten⟩ := ih (by omega) fun i image hi => hspares i image (by omega)
    have himage : m.candidates[k]? = some m.candidates[k] := List.getElem?_eq_getElem (by omega)
    have hnext := halike.transferImage hwritten (hspares k _ (by omega) himage)
      (hday _ _ (by omega)) hyear
    have himage' : m'.candidates[k]? = some m.candidates[k] := by rw [h.candidates_eq, himage]
    rw [jobAfter_succ m plan files clock himage, jobAfter_succ m' plan files' clock himage']
    exact ⟨hnext.1.mono (hday _ _ (by omega)), hnext.2⟩

end Alike

end Mover

end PhotoIntake
