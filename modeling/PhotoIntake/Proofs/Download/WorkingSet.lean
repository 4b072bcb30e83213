import PhotoIntake.Proofs.Download.Effects
import Mathlib.Data.List.Induction
import Mathlib.Data.List.Nodup

/-!
# Working sets and their keys

Every operation of a working set finds its images by their keys.  This module says what the
operations do to the keys, and what marking an image does to the candidates.

* `KeysApart`: no two images have the same key.  Every command of a mover keeps it, so it holds in
  every run of a mover that starts with an empty set, `keysApart_stateAfter`.
* `ofImages_of_nodup`: images with keys of their own are the set, in their order.  Of others there
  is one for each key, `mem_keys_ofImages` and `mem_of_mem_ofImages`.
* `candidates_written`: an image that was written is no candidate any more, and all others stay.
-/

namespace PhotoIntake

namespace WorkingSet

variable {s : WorkingSet} {image : Image}

/-- No two images have the same key. -/
def KeysApart (s : WorkingSet) : Prop :=
  s.keys.Nodup

theorem keysApart_empty : empty.KeysApart :=
  List.nodup_nil

/-! ## Adding images -/

theorem keys_add (s : WorkingSet) (image : Image) :
    (s.add image).keys = if image.key ∈ s.keys then s.keys else s.keys ++ [image.key] := by
  unfold add
  simp only [List.contains_iff_mem]
  split_ifs with hknown
  · show (s.images.map _).map Image.key = s.images.map Image.key
    rw [List.map_map]
    refine List.map_congr_left fun i _ => ?_
    by_cases hkey : i.key = image.key <;> simp [hkey]
  · simp [keys]

theorem KeysApart.add (h : s.KeysApart) (image : Image) : (s.add image).KeysApart := by
  unfold KeysApart
  rw [keys_add]
  split_ifs with hknown
  · exact h
  · simpa using List.Nodup.concat hknown h

theorem KeysApart.addAll (h : s.KeysApart) (images : List Image) : (s.addAll images).KeysApart := by
  induction images generalizing s with
  | nil => exact h
  | cons image rest ih => exact ih (h.add image)

theorem keysApart_ofImages (images : List Image) : (ofImages images).KeysApart :=
  keysApart_empty.addAll images

/-- An image with a new key is put at the end. -/
theorem images_add_of_not_mem (h : image.key ∉ s.keys) :
    (s.add image).images = s.images ++ [image] := by
  simp [WorkingSet.add, h]

theorem eq_or_mem_of_mem_add {i : Image} (h : i ∈ (s.add image).images) :
    i = image ∨ i ∈ s.images := by
  unfold add at h
  split at h
  · obtain ⟨j, hj, rfl⟩ := List.mem_map.1 h
    by_cases hkey : j.key = image.key
    · exact Or.inl (if_pos hkey)
    · exact Or.inr ((if_neg hkey).symm ▸ hj)
  · simpa [or_comm] using h

theorem ofImages_concat (images : List Image) (image : Image) :
    ofImages (images ++ [image]) = (ofImages images).add image := by
  simp [ofImages, addAll, List.foldl_append]

/-- Images with keys of their own are the set, in their order. -/
theorem ofImages_of_nodup {images : List Image} (h : (images.map Image.key).Nodup) :
    (ofImages images).images = images := by
  induction images using List.reverseRecOn with
  | nil => rfl
  | append_singleton images image ih =>
    rw [List.map_append, List.nodup_append] at h
    have hbefore := ih h.1
    have hnew : image.key ∉ (ofImages images).keys := by
      rw [keys, hbefore]
      exact fun hmem => h.2.2 _ hmem image.key (by simp) rfl
    rw [ofImages_concat, images_add_of_not_mem hnew, hbefore]

theorem mem_keys_ofImages {images : List Image} {key : ImageKey} :
    key ∈ (ofImages images).keys ↔ key ∈ images.map Image.key := by
  induction images using List.reverseRecOn with
  | nil => simp [ofImages, addAll, keys, empty]
  | append_singleton images image ih =>
    rw [ofImages_concat, keys_add, List.map_append, List.mem_append, ← ih]
    split_ifs with hknown
    · simp only [List.map_cons, List.map_nil, List.mem_singleton]
      exact ⟨Or.inl, fun h => h.elim id fun heq => heq ▸ hknown⟩
    · rw [List.mem_append]
      simp

/-- A set has no images but those that it is made of. -/
theorem mem_of_mem_ofImages {images : List Image} {i : Image} (h : i ∈ (ofImages images).images) :
    i ∈ images := by
  induction images using List.reverseRecOn with
  | nil => exact h
  | append_singleton images image ih =>
    rw [ofImages_concat] at h
    rw [List.mem_append, List.mem_singleton]
    exact (eq_or_mem_of_mem_add h).elim Or.inr fun hmem => Or.inl (ih hmem)

/-! ## Changing images -/

/-- A change that leaves the key of an image alone leaves all keys alone. -/
theorem keys_change {key : ImageKey} {f : Image → Image} (hf : ∀ i, (f i).key = i.key) :
    (s.change key f).keys = s.keys := by
  show (s.images.map _).map Image.key = s.images.map Image.key
  rw [List.map_map]
  refine List.map_congr_left fun i _ => ?_
  by_cases hkey : i.key = key <;> simp [hkey, hf]

/-- No property that can be updated is the key. -/
theorem key_apply (u : ImageUpdate) (image : Image) : (u.apply image).key = image.key := by
  cases u <;> rfl

theorem keys_update (s : WorkingSet) (keys : List ImageKey) (u : ImageUpdate) :
    (s.update keys u).keys = s.keys := by
  induction keys generalizing s with
  | nil => rfl
  | cons key rest ih => exact (ih _).trans (keys_change (key_apply u))

end WorkingSet

namespace Mover

variable {m : Mover} {plan : Plan} {clock : Clock}

theorem nodup_keys_candidates (hkeys : m.workingSet.KeysApart) :
    (m.candidates.map Image.key).Nodup :=
  hkeys.sublist (List.filter_sublist.map Image.key)

/-! ## Images that were written -/

@[simp] theorem keys_written (m : Mover) (d : Downloaded) :
    (m.written d).workingSet.keys = m.workingSet.keys :=
  WorkingSet.keys_change fun _ => rfl

/-- What was written is no candidate any more. -/
theorem candidates_written (m : Mover) (d : Downloaded) :
    (m.written d).candidates = m.candidates.filter (·.key ≠ d.key) := by
  let marked (i : Image) : Image :=
    if i.key = d.key then
      { i with mark := .marked d.destination.text d.time, isSelected := false }
    else i
  have hcandidate (i : Image) :
      (marked i).isCandidate = (decide (i.key ≠ d.key) && i.isCandidate) := by
    by_cases hkey : i.key = d.key
    · simp [marked, hkey, Image.isCandidate]
    · simp [marked, hkey]
  have hothers : ∀ i ∈ m.workingSet.images.filter fun i =>
      decide (i.key ≠ d.key) && i.isCandidate, marked i = i := by
    intro i hi
    have hkey : i.key ≠ d.key := by
      simpa using (Bool.and_eq_true_iff.1 (List.mem_filter.1 hi).2).1
    exact if_neg hkey
  calc (m.written d).candidates
      = (m.workingSet.images.filter (Image.isCandidate ∘ marked)).map marked := List.filter_map
    _ = (m.workingSet.images.filter fun i =>
          decide (i.key ≠ d.key) && i.isCandidate).map marked :=
        congrArg (List.map marked) (List.filter_congr fun i _ => hcandidate i)
    _ = m.workingSet.images.filter fun i => decide (i.key ≠ d.key) && i.isCandidate :=
        (List.map_congr_left hothers).trans (List.map_id _)
    _ = m.candidates.filter (·.key ≠ d.key) := List.filter_filter.symm

@[simp] theorem keys_jobAfter (m : Mover) (plan : Plan) (files : FileTree) (clock : Clock)
    {n : Nat} (hn : n ≤ m.candidates.length) :
    (m.jobAfter plan files clock n).mover.workingSet.keys = m.workingSet.keys := by
  refine attempts_induction (P := fun n =>
    (m.jobAfter plan files clock n).mover.workingSet.keys = m.workingSet.keys) rfl
    (fun i image himage ih => ?_) hn
  rw [jobAfter_succ m plan files clock himage]
  rcases Job.transferImage_cases plan clock i (m.jobAfter plan files clock i) image with
    ⟨files', -, hjob⟩ | ⟨e, files', -, hjob⟩
  · rw [hjob, keys_written]
    exact ih
  · rw [hjob]
    exact ih

/-! ## Whole runs of a mover -/

/-- No command puts two images under one key. -/
theorem keysApart_handle {s s' : AtWork} {command : Command} {answers : List Bool}
    {events : List Event} (hkeys : s.mover.workingSet.KeysApart)
    (h : Course (s.handle clock command) answers events s') :
    s'.mover.workingSet.KeysApart := by
  cases command with
  | setImages images =>
    cases h with
    | done => exact WorkingSet.keysApart_ofImages images
  | clearImages =>
    cases h with
    | done => exact WorkingSet.keysApart_empty
  | addImages images =>
    cases h with
    | done => exact hkeys.addAll images
  | updateImages keys u =>
    cases h with
    | done =>
      unfold WorkingSet.KeysApart
      rw [WorkingSet.keys_update]
      exact hkeys
  | previewImage sample =>
    unfold AtWork.handle at h
    rcases preview_cases s.mover s.files clock sample with ⟨preview, hpreview⟩ | hpreview
    · simp only [hpreview] at h
      obtain ⟨-, rfl⟩ := Course.of_publish_done h
      exact hkeys
    · simp only [hpreview] at h
      cases h with
      | done => exact hkeys
  | previewFolders =>
    unfold AtWork.handle at h
    rcases folders_cases s.mover s.files clock with ⟨folders, hfolders⟩ | hfolders
    all_goals
      simp only [hfolders] at h
      obtain ⟨-, rfl⟩ := Course.of_publish_done h
      exact hkeys
  | download =>
    obtain ⟨⟨report, m', files'⟩, answers₁, answers₂, events₁, events₂, hrun, hend, -, -⟩ :=
      Course.of_bind h
    obtain ⟨events', hdownload, -⟩ := Course.of_translate hrun
    obtain ⟨-, rfl⟩ := Course.of_publish_done hend
    cases hplan : s.mover.plan? with
    | none =>
      obtain ⟨-, hresult⟩ := course_download_of_not_planned hplan hdownload
      obtain ⟨-, rfl, -⟩ : report = .completed [] ∧ m' = s.mover ∧ files' = s.files := by
        simpa using hresult
      exact hkeys
    | some plan =>
      obtain ⟨k, hk, -, -, -, rfl, -⟩ := course_download hplan hdownload
      unfold WorkingSet.KeysApart
      rw [keys_jobAfter s.mover plan s.files clock hk]
      exact hkeys
  | saveSequences =>
    unfold AtWork.handle saveSequences at h
    simp only at h
    rcases hsave : s.mover.sequences.save s.files with ⟨e | _, sequences, files⟩
    all_goals
      rw [hsave] at h
      obtain ⟨-, rfl⟩ := Course.of_publish_done h
      exact hkeys
  | _ =>
    cases h with
    | done => exact hkeys

/-- So in every run of a mover no two images have the same key, if that is so at the start. -/
theorem keysApart_stateAfter {clock : Nat → Clock} {s : AtWork}
    {passages : List (Passage AtWork Command Event)}
    (hpassing : Worker.Passing (worker clock) s passages)
    (hkeys : s.mover.workingSet.KeysApart) :
    (Worker.stateAfter s passages).mover.workingSet.KeysApart := by
  induction hpassing with
  | nil s => exact hkeys
  | cons hperform _ ih =>
    obtain ⟨answers, hcourse⟩ := Worker.course_of_perform hperform
    obtain ⟨s₁, answers₁, answers₂, events₁, events₂, hhandle, hcount, -, -⟩ :=
      Course.of_bind hcourse
    have hkept := keysApart_handle hkeys hhandle
    cases hcount with
    | done => exact ih hkept

end Mover

end PhotoIntake
