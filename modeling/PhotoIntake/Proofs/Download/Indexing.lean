import PhotoIntake.Proofs.Download.Folders
import PhotoIntake.Proofs.Download.Marking
import PhotoIntake.Proofs.Download.Unobserved

/-!
# Working sets with an index

A working set that finds its images fast keeps a table of the positions of their keys.  The table is
written when an image with a new key is put at the end, and when the set is cleared; whatever else
happens to an image goes to the position that the table gives.  If the table were behind the images,
a position would lead nowhere or to another image.

* `Change` is what can happen to a working set, `WorkingSet.afterAll` what becomes of the set.
* `IndexedSet` is the set with its table.  What it does at a position may fail, `OutOfBounds`.
* `Represents.after`: a table that is in step with the images stays so, and nothing fails.
* `keys_afterAll` and `get?_afterAll`: the keys and the image of a key after any changes.
* `Request.changes` and `workingSet_operateAll`: the changes that the requests to a mover make.
* `working_set_represented`: what the set and its table hold after any run of a mover.
-/

namespace PhotoIntake

/-! ## Changes -/

/-- What can happen to an image while it is in a working set. -/
inductive Amendment where
  | update (u : ImageUpdate)
  | mark (d : Downloaded)

namespace Amendment

/-- The image after it was amended. -/
def apply (image : Image) : Amendment → Image
  | update u => u.apply image
  | mark d => d.mark image

@[simp] theorem key_apply (a : Amendment) (image : Image) : (a.apply image).key = image.key := by
  cases a with
  | update u => exact WorkingSet.key_apply u image
  | mark d => rfl

end Amendment

/-- What can happen to a working set. -/
inductive Change where
  | clear
  | add (image : Image)
  | amend (key : ImageKey) (a : Amendment)

namespace Change

/-- After the change the image of a key is another one than before, or there is none. -/
def Replaces (key : ImageKey) : Change → Prop
  | clear => True
  | add image => image.key = key
  | amend _ _ => False

/-- The amendments of the image of a key, in turn. -/
def amendments (key : ImageKey) : List Change → List Amendment
  | [] => []
  | amend key' a :: rest =>
    if key' = key then a :: amendments key rest else amendments key rest
  | _ :: rest => amendments key rest

/-- The images that were added since the set was cleared last, in turn. -/
def added (changes : List Change) : List Image :=
  changes.foldl (fun images change =>
    match change with
    | clear => []
    | add image => images ++ [image]
    | amend _ _ => images) []

end Change

namespace WorkingSet

variable {s : WorkingSet} {key : ImageKey} {image : Image} {i : Nat} {f : Image → Image}

/-- The set after a change. -/
def after (s : WorkingSet) : Change → WorkingSet
  | .clear => empty
  | .add image => s.add image
  | .amend key a => s.change key fun image => a.apply image

/-- The set after changes in turn. -/
def afterAll (s : WorkingSet) (changes : List Change) : WorkingSet :=
  changes.foldl after s

theorem afterAll_append (s : WorkingSet) (changes later : List Change) :
    s.afterAll (changes ++ later) = (s.afterAll changes).afterAll later :=
  List.foldl_append

theorem KeysApart.after (h : s.KeysApart) (change : Change) : (s.after change).KeysApart := by
  cases change with
  | clear => exact keysApart_empty
  | add image => exact h.add image
  | amend key a =>
    unfold KeysApart WorkingSet.after
    rw [keys_change a.key_apply]
    exact h

theorem KeysApart.afterAll (h : s.KeysApart) (changes : List Change) :
    (s.afterAll changes).KeysApart := by
  induction changes generalizing s with
  | nil => exact h
  | cons change rest ih => exact ih (h.after change)

/-! ## Positions -/

theorem getElem?_keys (s : WorkingSet) (i : Nat) : s.keys[i]? = s.images[i]?.map Image.key :=
  List.getElem?_map

theorem position?_eq (s : WorkingSet) (key : ImageKey) :
    s.position? key = s.keys.findIdx? (· == key) := by
  rw [keys, List.findIdx?_map]
  rfl

theorem position?_eq_none_iff : s.position? key = none ↔ key ∉ s.keys := by
  rw [position?_eq, List.findIdx?_eq_none_iff]
  exact ⟨fun h hmem => by simpa using h key hmem, fun h key' hmem => beq_false_of_ne fun heq =>
    h (heq ▸ hmem)⟩

/-- Where keys are distinct, the position of a key is the one at which it stands. -/
theorem KeysApart.position?_eq_some_iff (h : s.KeysApart) :
    s.position? key = some i ↔ s.keys[i]? = some key := by
  rw [position?_eq, List.findIdx?_eq_some_iff_getElem]
  constructor
  · rintro ⟨hlt, hkey, -⟩
    rw [List.getElem?_eq_getElem hlt, beq_iff_eq.1 hkey]
  · intro hat
    obtain ⟨hlt, hkey⟩ := List.getElem?_eq_some_iff.1 hat
    refine ⟨hlt, beq_iff_eq.2 hkey, fun j hj hsame => ?_⟩
    have hij : i = j := (List.getElem?_inj hlt h).1
      (by rw [hat, List.getElem?_eq_getElem (by omega), beq_iff_eq.1 hsame])
    omega

/-- An image with a new key gets the position behind all others. -/
theorem position?_add_of_not_mem (h : image.key ∉ s.keys) (key : ImageKey) :
    (s.add image).position? key =
      if image.key = key then some s.images.length else s.position? key := by
  unfold position?
  rw [images_add_of_not_mem h, List.findIdx?_append]
  by_cases hkey : image.key = key
  · have hnone : s.images.findIdx? (·.key == key) = none :=
      position?_eq_none_iff.2 (hkey ▸ h)
    simp [hkey, hnone]
  · simp [hkey]

/-- Changing the image of a key is changing the image at its position. -/
theorem KeysApart.images_change (h : s.KeysApart) (hposition : s.position? key = some i)
    (f : Image → Image) : (s.change key f).images = s.images.modify i f := by
  have hat := h.position?_eq_some_iff.1 hposition
  refine List.ext_getElem? fun j => ?_
  rw [change, List.getElem?_map, List.getElem?_modify]
  cases himage : s.images[j]? with
  | none => rfl
  | some image =>
    have hkey : s.keys[j]? = some image.key := by rw [getElem?_keys, himage, Option.map_some]
    -- The change goes by the key and the table by the position; with keys apart they agree.
    have hsame : image.key = key ↔ i = j := by
      obtain ⟨hlt, -⟩ := List.getElem?_eq_some_iff.1 hat
      rw [← List.getElem?_inj hlt h, hat, hkey, Option.some_inj, eq_comm]
    simp [hsame]

/-- A change of an unknown key changes nothing. -/
theorem change_of_not_mem (h : key ∉ s.keys) (f : Image → Image) : s.change key f = s := by
  have hsame : (s.images.map fun i => if i.key = key then f i else i) = s.images := by
    refine (List.map_congr_left fun i hi => if_neg fun heq => h ?_).trans (List.map_id _)
    exact heq ▸ List.mem_map_of_mem hi
  rw [change, hsame]

/-- An image with a known key is put in place of the one with its key. -/
theorem add_of_mem (h : image.key ∈ s.keys) : s.add image = s.change image.key fun _ => image := by
  simp [add, change, h]

/-- An update leaves out the keys that are not known. -/
theorem update_filter_known (s : WorkingSet) (keys : List ImageKey) (u : ImageUpdate) :
    s.update (keys.filter (· ∈ s.keys)) u = s.update keys u := by
  induction keys generalizing s with
  | nil => rfl
  | cons key rest ih =>
    have hstep : s.update (key :: rest) u =
        (s.change key fun image => u.apply image).update rest u := rfl
    have hkeys : (s.change key fun image => u.apply image).keys = s.keys :=
      keys_change (key_apply u)
    rw [hstep, ← ih, hkeys]
    by_cases hknown : key ∈ s.keys
    · rw [List.filter_cons_of_pos (by simpa using hknown)]
      rfl
    · rw [List.filter_cons_of_neg (by simpa using hknown), change_of_not_mem hknown]

/-! ## The image of a key -/

theorem get?_eq (s : WorkingSet) (key : ImageKey) :
    s.get? key = (s.position? key).bind fun i => s.images[i]? :=
  List.find?_eq_bind_findIdx?_getElem?

theorem get?_eq_none_iff : s.get? key = none ↔ key ∉ s.keys := by
  rw [get?, List.find?_eq_none, keys, List.mem_map, not_exists]
  simp

/-- A change of the image of a key leaves those of other keys alone. -/
theorem get?_change (hf : ∀ i : Image, i.key = key → (f i).key = key) (key' : ImageKey) :
    (s.change key f).get? key' = if key = key' then (s.get? key').map f else s.get? key' := by
  let changed (i : Image) : Image := if i.key = key then f i else i
  have hkey (i : Image) : (changed i).key = i.key := by
    by_cases h : i.key = key
    · simp only [changed, if_pos h, hf i h, h]
    · simp only [changed, if_neg h]
  have hfind : (s.change key f).get? key' = (s.get? key').map changed := by
    show (s.images.map changed).find? _ = _
    rw [List.find?_map, get?]
    congr 2
    funext i
    rw [Function.comp_apply, hkey]
  rw [hfind]
  cases hget : s.get? key' with
  | none => simp
  | some i =>
    have hfound : i.key = key' := by simpa using List.find?_some hget
    by_cases h : key = key'
    · simp [changed, hfound, h]
    · simp [changed, hfound, h, Ne.symm h]

theorem get?_add (s : WorkingSet) (image : Image) (key : ImageKey) :
    (s.add image).get? key = if image.key = key then some image else s.get? key := by
  by_cases hknown : image.key ∈ s.keys
  · rw [add_of_mem hknown, get?_change (fun _ _ => rfl)]
    split_ifs with hkey
    · cases hget : s.get? key with
      | none => exact absurd (hkey ▸ hknown) (get?_eq_none_iff.1 hget)
      | some i => rfl
    · rfl
  · have hnew : s.get? image.key = none := get?_eq_none_iff.2 hknown
    rw [get?, images_add_of_not_mem hknown, List.find?_append, ← get?]
    by_cases hkey : image.key = key
    · simp [← hkey, hnew]
    · simp [hkey]

/-! ## The set after changes -/

/-- The keys are those of the images that were added since the set was cleared last, in the order in
which they were first added. -/
theorem keys_afterAll (changes : List Change) : (empty.afterAll changes).keys =
    Mover.firstSeen ((Change.added changes).map Image.key) := by
  -- From the end of the history: what an addition does to the keys depends on all before it.
  induction changes using List.reverseRecOn with
  | nil => rfl
  | append_singleton changes change ih =>
    rw [afterAll_append, Change.added, List.foldl_append, ← Change.added]
    show ((empty.afterAll changes).after change).keys = _
    cases change with
    | clear => rfl
    | add image =>
      show ((empty.afterAll changes).add image).keys = _
      rw [keys_add, ih, List.foldl_cons, List.foldl_nil, List.map_append, List.map_cons,
        List.map_nil, Mover.firstSeen_concat]
    | amend key a =>
      show ((empty.afterAll changes).change key _).keys = _
      rw [keys_change a.key_apply, ih]
      rfl

/-- An image that is not replaced is amended in turn. -/
theorem get?_afterAll_of_not_replaced {changes : List Change}
    (hkept : ∀ change ∈ changes, ¬ change.Replaces key) :
    (s.afterAll changes).get? key =
      (s.get? key).map fun image => (Change.amendments key changes).foldl Amendment.apply image := by
  induction changes generalizing s with
  | nil => exact Option.map_id'.symm
  | cons change rest ih =>
    have hrest := ih (s := s.after change) fun c hc => hkept c (List.mem_cons_of_mem change hc)
    have hnow := hkept change List.mem_cons_self
    rw [show s.afterAll (change :: rest) = (s.after change).afterAll rest from rfl, hrest]
    cases change with
    | clear => exact absurd trivial hnow
    | add image =>
      have hother : image.key ≠ key := hnow
      rw [after, get?_add, if_neg hother]
      rfl
    | amend key' a =>
      rw [after, get?_change (fun i h => (a.key_apply i).trans h), Change.amendments]
      split_ifs with hkey
      · rw [Option.map_map]
        rfl
      · rfl

/-- The image of a key is the one that was added last, amended by what came later. -/
theorem get?_afterAll (s : WorkingSet) (before later : List Change) (image : Image)
    (hkept : ∀ change ∈ later, ¬ change.Replaces image.key) :
    (s.afterAll (before ++ .add image :: later)).get? image.key =
      some ((Change.amendments image.key later).foldl Amendment.apply image) := by
  rw [afterAll_append]
  show (((s.afterAll before).add image).afterAll later).get? image.key = _
  rw [get?_afterAll_of_not_replaced hkept, get?_add, if_pos rfl, Option.map_some]

end WorkingSet

/-! ## The index -/

/-- A position at which there is no image. -/
structure OutOfBounds where
  position : Nat

/-- Images, and a table of the positions of their keys. -/
structure IndexedSet where
  images : List Image
  index : Std.HashMap ImageKey Nat

namespace IndexedSet

variable {x : IndexedSet} {s : WorkingSet} {key : ImageKey} {i : Nat}

/-- A set without images. -/
def empty : IndexedSet :=
  ⟨[], ∅⟩

/-- Change the image at a position. -/
def changeAt (x : IndexedSet) (i : Nat) (f : Image → Image) : Except OutOfBounds IndexedSet :=
  if i < x.images.length then .ok { x with images := x.images.modify i f } else .error ⟨i⟩

/-- Look up the image of a key by its position. -/
def get? (x : IndexedSet) (key : ImageKey) : Except OutOfBounds (Option Image) :=
  match x.index[key]? with
  | none => .ok none
  | some i =>
    match x.images[i]? with
    | some image => .ok (some image)
    | none => .error ⟨i⟩

/-- Make a change.  The table is asked where the image of a key is; it is written only when an image
is put at the end. -/
def after (x : IndexedSet) : Change → Except OutOfBounds IndexedSet
  | .clear => .ok empty
  | .add image =>
    match x.index[image.key]? with
    | some i => x.changeAt i fun _ => image
    | none => .ok ⟨x.images ++ [image], x.index.insert image.key x.images.length⟩
  | .amend key a =>
    match x.index[key]? with
    | some i => x.changeAt i fun image => a.apply image
    | none => .ok x

/-- Make changes in turn. -/
def afterAll (x : IndexedSet) (changes : List Change) : Except OutOfBounds IndexedSet :=
  changes.foldlM after x

/-- The images are those of a working set, and the table gives their positions. -/
structure Represents (x : IndexedSet) (s : WorkingSet) : Prop where
  images : x.images = s.images
  index : ∀ key, x.index[key]? = s.position? key

theorem represents_empty : empty.Represents .empty :=
  ⟨rfl, fun _ => Std.HashMap.getElem?_empty⟩

namespace Represents

/-- A position that the table gives is one of an image. -/
theorem lt_length (h : x.Represents s) (hkeys : s.KeysApart) (hi : s.position? key = some i) :
    i < x.images.length := by
  obtain ⟨hlt, -⟩ := List.getElem?_eq_some_iff.1 (hkeys.position?_eq_some_iff.1 hi)
  rw [h.images]
  simpa [WorkingSet.keys] using hlt

theorem get?_eq (h : x.Represents s) (hkeys : s.KeysApart) (key : ImageKey) :
    x.get? key = .ok (s.get? key) := by
  unfold get?
  rw [h.index, h.images, s.get?_eq]
  cases hi : s.position? key with
  | none => rfl
  | some i =>
    have hlt := h.lt_length hkeys hi
    rw [h.images] at hlt
    simp [List.getElem?_eq_getElem hlt]

/-- A change at the position of a key is a change of its image. -/
theorem changeAt (h : x.Represents s) (hkeys : s.KeysApart) (hi : s.position? key = some i)
    {f : Image → Image} (hf : (s.change key f).keys = s.keys) :
    ∃ x', x.changeAt i f = .ok x' ∧ x'.Represents (s.change key f) := by
  refine ⟨_, if_pos (h.lt_length hkeys hi), ?_, fun key' => ?_⟩
  · rw [hkeys.images_change hi, h.images]
  · rw [h.index, s.position?_eq, WorkingSet.position?_eq, hf]

/-- No change fails, and the table stays in step with the images. -/
theorem after (h : x.Represents s) (hkeys : s.KeysApart) (change : Change) :
    ∃ x', x.after change = .ok x' ∧ x'.Represents (s.after change) := by
  cases change with
  | clear => exact ⟨_, rfl, represents_empty⟩
  | add image =>
    unfold IndexedSet.after WorkingSet.after
    simp only [h.index]
    cases hi : s.position? image.key with
    | none =>
      have hnew := WorkingSet.position?_eq_none_iff.1 hi
      refine ⟨_, rfl, ?_, fun key => ?_⟩
      · rw [WorkingSet.images_add_of_not_mem hnew, h.images]
      · rw [Std.HashMap.getElem?_insert, WorkingSet.position?_add_of_not_mem hnew, h.index,
          h.images]
        simp
    | some i =>
      have hknown : image.key ∈ s.keys := by
        by_contra hnew
        rw [WorkingSet.position?_eq_none_iff.2 hnew] at hi
        cases hi
      have hkept : (s.add image).keys = s.keys := by rw [WorkingSet.keys_add, if_pos hknown]
      rw [WorkingSet.add_of_mem hknown] at hkept ⊢
      exact h.changeAt hkeys hi hkept
  | amend key a =>
    unfold IndexedSet.after WorkingSet.after
    simp only [h.index]
    cases hi : s.position? key with
    | none =>
      rw [WorkingSet.change_of_not_mem (WorkingSet.position?_eq_none_iff.1 hi)]
      exact ⟨x, rfl, h⟩
    | some i => exact h.changeAt hkeys hi (WorkingSet.keys_change a.key_apply)

theorem afterAll (h : x.Represents s) (hkeys : s.KeysApart) (changes : List Change) :
    ∃ x', x.afterAll changes = .ok x' ∧ x'.Represents (s.afterAll changes) := by
  induction changes generalizing x s with
  | nil => exact ⟨x, rfl, h⟩
  | cons change rest ih =>
    obtain ⟨x₁, hchange, hnext⟩ := h.after hkeys change
    obtain ⟨x', hrest, hlast⟩ := ih hnext (hkeys.after change)
    refine ⟨x', ?_, hlast⟩
    rw [IndexedSet.afterAll, List.foldlM_cons, hchange]
    exact hrest

end Represents

end IndexedSet

/-! ## Runs of a mover -/

namespace Mover

variable {clock : Clock} {answer : Nat → Bool}

/-- The changes of the working set that a request makes.  A download marks what it tells to have
written; requests for anything else change no image. -/
def Request.changes (events : List Event) : Request → List Change
  | command (.setImages images) _ => .clear :: images.map .add
  | command .clearImages _ => [.clear]
  | command (.addImages images) _ => images.map .add
  | command (.updateImages keys u) _ => keys.map fun key => .amend key (.update u)
  | command .download _ => (events.flatMap Event.reported).map fun d => .amend d.key (.mark d)
  | _ => []

theorem afterAll_add (s : WorkingSet) (images : List Image) :
    s.afterAll (images.map .add) = s.addAll images :=
  List.foldl_map

theorem afterAll_update (s : WorkingSet) (keys : List ImageKey) (u : ImageUpdate) :
    s.afterAll (keys.map fun key => .amend key (.update u)) = s.update keys u :=
  List.foldl_map

theorem workingSet_foldl_written (m : Mover) (ds : List Downloaded) :
    (ds.foldl written m).workingSet =
      m.workingSet.afterAll (ds.map fun d => .amend d.key (.mark d)) := by
  induction ds generalizing m with
  | nil => rfl
  | cons d rest ih => exact ih (m.written d)

namespace AtWork

/-- The changes of the working set in a run. -/
def changes : AtWork → List Step → List Change
  | _, [] => []
  | s, step :: rest =>
    step.request.changes (s.operate step).2.events ++ (s.operate step).1.changes rest

theorem workingSet_download (s : AtWork) :
    let told := s.operate ⟨clock, .command .download answer⟩
    told.1.mover.workingSet = s.mover.workingSet.afterAll
      ((Request.command .download answer).changes told.2.events) := by
  intro told
  cases hplan : s.mover.plan? with
  | none =>
    rw [show told = _ from operate_download_of_not_planned s hplan]
    rfl
  | some plan =>
    obtain ⟨sequences, hmover⟩ := mover_jobAfter s.mover plan s.files clock
      (attempts_le answer s.mover.candidates.length)
    rw [show told = _ from operate_download s hplan]
    simp only [Request.changes, downloadEvents, reported_download, images_reportAfter]
    rw [hmover]
    exact workingSet_foldl_written _ _

/-- A request changes the working set by its changes and in no other way. -/
theorem workingSet_operate (s : AtWork) (step : Step) :
    (s.operate step).1.mover.workingSet =
      s.mover.workingSet.afterAll (step.request.changes (s.operate step).2.events) := by
  cases hpreview : step.request.isPreview with
  | true =>
    have hnone (events : List Event) : step.request.changes events = [] := by
      obtain ⟨clock, command | _⟩ := step
      · cases command <;> first | rfl | cases hpreview
      · rfl
    rw [hnone]
    rcases operate_preview s hpreview with hlooked | hnothing
    · rw [hlooked]
      rfl
    · rw [hnothing]
      rfl
  | false =>
    obtain ⟨clock, command | _⟩ := step
    · cases command with
      | download => exact workingSet_download s
      | setImages images => exact (afterAll_add .empty images).symm
      | addImages images => exact (afterAll_add s.mover.workingSet images).symm
      | updateImages keys u => exact (afterAll_update s.mover.workingSet keys u).symm
      | saveSequences =>
        simp only [operate, handle, saveSequences]
        rcases s.mover.sequences.save s.files with ⟨e | _, sequences, files⟩ <;> rfl
      | previewImage sample => cases hpreview
      | previewFolders => cases hpreview
      | _ => rfl
    · rfl

theorem workingSet_operateAll (s : AtWork) (steps : List Step) :
    (s.operateAll steps).1.mover.workingSet = s.mover.workingSet.afterAll (s.changes steps) := by
  induction steps generalizing s with
  | nil => rfl
  | cons step rest ih =>
    rw [operateAll_cons, changes, WorkingSet.afterAll_append, ← workingSet_operate]
    exact ih _

end AtWork

/-- After any requests to a mover no two of its images have the same key.  A set with an index that
makes the same changes never looks up a position without an image; it has the same images, its table
holds their keys, each with its position, and nothing else, and it finds the image of every key.
The keys are in the order in which they were first added since the set was cleared last.  The image
of a key is the one that was added last under it, with the updates and the marks of downloads that
came later made in turn, and there is one only for keys that were added.  Of an update those keys
can be left out that are not known. -/
theorem working_set_represented (sequences : Sequences) (mode : TransferMode) (files : FileTree)
    (steps : List Step) :
    let start := AtWork.ofMover (.ofSequences sequences mode) files
    let s := (start.operateAll steps).1.mover.workingSet
    let changes := start.changes steps
    s.keys.Nodup ∧
    (∃ x, IndexedSet.empty.afterAll changes = .ok x ∧ x.images = s.images ∧
      (∀ (key : ImageKey) (i : Nat), x.index[key]? = some i ↔ s.keys[i]? = some key) ∧
      ∀ key, x.get? key = .ok (s.get? key)) ∧
    s.keys = firstSeen ((Change.added changes).map Image.key) ∧
    (∀ before image later, changes = before ++ .add image :: later →
      (∀ change ∈ later, ¬ change.Replaces image.key) →
      s.get? image.key = some ((Change.amendments image.key later).foldl Amendment.apply image)) ∧
    (∀ key, (s.get? key).isSome ↔ key ∈ s.keys) ∧
    ∀ keys u, s.update (keys.filter (· ∈ s.keys)) u = s.update keys u := by
  intro start s changes
  have hset : s = WorkingSet.empty.afterAll changes := start.workingSet_operateAll steps
  have hkeys : s.KeysApart := hset ▸ WorkingSet.keysApart_empty.afterAll changes
  obtain ⟨x, hrun, hrepresents⟩ :=
    IndexedSet.represents_empty.afterAll WorkingSet.keysApart_empty changes
  rw [← hset] at hrepresents
  refine ⟨hkeys, ⟨x, hrun, hrepresents.images, fun key i => ?_, hrepresents.get?_eq hkeys⟩, ?_,
    fun before image later hsplit hkept => ?_, fun key => ?_, s.update_filter_known⟩
  · rw [hrepresents.index, hkeys.position?_eq_some_iff]
  · rw [hset, WorkingSet.keys_afterAll]
  · rw [hset, hsplit]
    exact WorkingSet.get?_afterAll _ before later image hkept
  · rw [← not_iff_not, ← WorkingSet.get?_eq_none_iff, Option.not_isSome_iff_eq_none]

end Mover

end PhotoIntake
