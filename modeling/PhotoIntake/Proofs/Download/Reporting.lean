import PhotoIntake.Proofs.Download.Delivery
import PhotoIntake.Proofs.Download.Numbering
import PhotoIntake.Proofs.FileTree.Descent

/-!
# What a download reports

A download reports images in the order of its candidates, and only such as could be read: whatever
becomes of a source, its path could be followed when the image was transferred.

* `Transfer.followable_of_succeeds`: a transfer that succeeds has followed the path of its source.
* `reported_jobAfter`: what is reported after a number of attempts.
* `result_download`: a download that is not stopped attempts all its candidates.
-/

namespace PhotoIntake

namespace Transfer

open FileTree FileAction

variable {t : FileTree} {source target : Path}

theorem followable_of_copyFile (h : (copyFile source target).succeeds t = true) :
    Followable source := by
  by_cases hfile : ∃ k content modified, t.entry? source = some (k, .file content modified)
  · obtain ⟨k, content, modified, hsource⟩ := hfile
    exact followable_of_placeOf (entry?_eq_some_iff.1 hsource).1
  · obtain ⟨e, hfails⟩ := copyFile_fails target hfile
    simp [FileAction.succeeds, hfails] at h

theorem followable_of_copyThenRemove (h : (copyThenRemove source target).succeeds t = true) :
    Followable source := by
  have hcopied : (copyFile source target).succeeds t = true := by
    rw [FileAction.succeeds, runOn_copyThenRemove] at h
    rw [FileAction.succeeds]
    rcases hcopy : (copyFile source target).runOn t with ⟨e | u, t'⟩
    · simp [hcopy] at h
    · rfl
  exact followable_of_copyFile hcopied

theorem followable_of_deliver {mode : TransferMode}
    (h : (deliver mode source target).succeeds t = true) : Followable source := by
  cases mode with
  | copy => exact followable_of_copyFile h
  | move =>
    rcases rename_cases source target t with
      ⟨e, hfails⟩ | ⟨origin, goal, moved, hsource, -⟩
    · rw [FileAction.succeeds, deliver, runOn_tryCatch, hfails, ← FileAction.succeeds] at h
      exact followable_of_copyThenRemove h
    · exact followable_of_placeOf hsource

/-- A transfer that succeeds has followed the path of its source. -/
theorem followable_of_succeeds {mode : TransferMode}
    (h : (run mode source target).succeeds t = true) : Followable source := by
  rw [FileAction.succeeds, runOn_run] at h
  rcases hprepare : (prepare target).runOn t with ⟨e | u, t'⟩
  · simp [hprepare] at h
  · simp only [hprepare] at h
    exact followable_of_deliver (t := t') h

end Transfer

namespace Mover

variable {m : Mover} {plan : Plan} {files : FileTree} {clock : Clock}

theorem followable_of_attemptSucceeds {i : Nat} {image : Image}
    (himage : m.candidates[i]? = some image)
    (h : m.attemptSucceeds plan files clock i = true) : FileTree.Followable image.source := by
  rw [attemptSucceeds, himage] at h
  exact Transfer.followable_of_succeeds h

/-- After a number of attempts, images from among the attempted ones are reported in their order,
and the paths of all of them could be followed. -/
theorem reported_jobAfter (m : Mover) (plan : Plan) (files : FileTree) (clock : Clock) {n : Nat}
    (hn : n ≤ m.candidates.length) :
    ((m.jobAfter plan files clock n).written.map Downloaded.key).Sublist
        ((m.candidates.take n).map Image.key) ∧
      ∀ d ∈ (m.jobAfter plan files clock n).written, FileTree.Followable ⟨d.key⟩ := by
  refine attempts_induction (P := fun n =>
    ((m.jobAfter plan files clock n).written.map Downloaded.key).Sublist
        ((m.candidates.take n).map Image.key) ∧
      ∀ d ∈ (m.jobAfter plan files clock n).written, FileTree.Followable ⟨d.key⟩)
    ⟨List.nil_sublist _, by simp [jobAfter, Job.transferEach]⟩ (fun i image himage ih => ?_) hn
  obtain ⟨hkeys, hfollow⟩ := ih
  have htake : (m.candidates.take (i + 1)).map Image.key =
      (m.candidates.take i).map Image.key ++ [image.key] := by
    rw [List.take_add_one, himage, Option.toList_some, List.map_append]
    rfl
  rw [htake]
  rcases jobAfter_succ_cases m plan files clock himage with
    ⟨hsucceeds, files', hjob⟩ | ⟨-, files', hjob⟩
  all_goals rw [hjob]
  · rw [List.map_append]
    refine ⟨hkeys.append (List.Sublist.refl _), fun d hd => ?_⟩
    rcases List.mem_append.1 hd with hd | hd
    · exact hfollow d hd
    · obtain rfl := List.mem_singleton.1 hd
      exact followable_of_attemptSucceeds himage hsucceeds
  · exact ⟨hkeys.trans (List.sublist_append_left _ _), hfollow⟩

/-- A download that is not stopped attempts all its candidates. -/
theorem result_download (hplan : m.plan? = some plan) (files : FileTree) (clock : Clock) :
    (m.download files clock).result =
      let job := m.jobAfter plan files clock m.candidates.length
      (.completed job.written, job.mover, job.files) := by
  have hrun := run_download files clock (fun _ => false) hplan
  rw [attempts_eq (Nat.le_refl _) (fun _ _ => rfl) (fun h => absurd h (Nat.lt_irrefl _))] at hrun
  rw [Dialogue.result, hrun, reportAfter]
  simp

end Mover

end PhotoIntake
