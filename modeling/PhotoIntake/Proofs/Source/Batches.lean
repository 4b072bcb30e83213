import PhotoIntake.Source.Scan
import Mathlib.Algebra.GroupWithZero.Nat
import Mathlib.Tactic.Common

/-!
# How a scan cuts its walk into batches

A scan has three exits: the stop flag, a receiver that is gone, and the end of the walk, where what
remains is handed out.  The surroundings may do anything at any moment, so what the scan hands out
is read off a log of the calls that it makes of them.

* `Logged` and `logged`: surroundings that log the calls of a scan, and change nothing else.
* `Underway` is the invariant of the scan, kept by every entry of the walk.
* `batches_chunk_walk`: whatever the surroundings do, the batches cut the image files of the walk.
-/

namespace PhotoIntake.Scan

variable {σ : Type} {w : Surroundings σ} {size : Nat}

/-! ## The log of a scan -/

/-- A batch with its number as it was handed to the receiver, and what the receiver answered. -/
structure Call where
  number : Nat
  batch : List Found
  accepted : Bool

/-- The state of the surroundings with what was asked of them: the answers of the stop flag, and the
calls of the receiver. -/
structure Logged (σ : Type) where
  env : σ
  flags : List Bool
  calls : List Call

/-- The surroundings with a log. -/
def logged (w : Surroundings σ) : Surroundings (Logged σ) where
  isStopped l :=
    let (stop, env) := w.isStopped l.env
    (stop, { l with env, flags := l.flags ++ [stop] })
  lookup l p :=
    let (downloaded, env) := w.lookup l.env p
    (downloaded, { l with env })
  receive l number batch :=
    let (accepted, env) := w.receive l.env number batch
    (accepted, { l with env, calls := l.calls ++ [⟨number, batch, accepted⟩] })

/-- Surroundings that answer as others do, with a state in which the state of those is seen. -/
structure Shadows {τ : Type} (w' : Surroundings τ) (w : Surroundings σ) (seen : τ → σ) : Prop where
  isStopped : ∀ l, w.isStopped (seen l) = ((w'.isStopped l).1, seen (w'.isStopped l).2)
  lookup : ∀ l p, w.lookup (seen l) p = ((w'.lookup l p).1, seen (w'.lookup l p).2)
  receive : ∀ l number batch, w.receive (seen l) number batch =
    ((w'.receive l number batch).1, seen (w'.receive l number batch).2)

/-- A scan does not notice what they remember besides. -/
theorem Shadows.scanRest_eq {τ : Type} {w' : Surroundings τ} {seen : τ → σ} (h : Shadows w' w seen)
    (size : Nat) (walk : Walk) (s : State) (l : τ) :
    scanRest w size walk s (seen l) =
      ((scanRest w' size walk s l).1, seen (scanRest w' size walk s l).2) := by
  induction walk generalizing s l with
  | nil =>
    simp only [scanRest, finish, h.receive]
    split <;> rfl
  | cons item rest ih =>
    simp only [scanRest, h.isStopped]
    by_cases hstop : (w'.isStopped l).1 = true
    · simp only [hstop, if_true]
    · simp only [hstop, if_false, Bool.false_eq_true]
      cases item with
      | none => exact ih _ _
      | some v =>
        simp only [h.lookup, h.receive]
        split_ifs
        all_goals first | rfl | exact ih _ _

/-- The scan does not notice the log. -/
theorem scanRest_logged (w : Surroundings σ) (size : Nat) (walk : Walk) (s : State)
    (l : Logged σ) :
    let result := scanRest (logged w) size walk s l
    (result.1, result.2.env) = scanRest w size walk s l.env :=
  have h : Shadows (logged w) w Logged.env := ⟨fun _ => rfl, fun _ _ => rfl, fun _ _ _ => rfl⟩
  (h.scanRest_eq size walk s l).symm

/-! ## Names and paths -/

/-- The name and the path of an image that was found. -/
def fileOf (found : Found) : String × String :=
  (found.name, found.path)

/-- An image file as it is handed out, with what is known of its download. -/
def foundWith (v : Visit) (downloaded : Option History.Download) : Found :=
  ⟨v.name, v.path.text, downloaded⟩

/-- The names and the paths of the image files of a walk, in their order. -/
def filesOf (walk : Walk) : List (String × String) :=
  (Walk.images walk).map fun v => (v.name, v.path.text)

theorem filesOf_append (seen rest : Walk) :
    filesOf (seen ++ rest) = filesOf seen ++ filesOf rest := by
  simp [filesOf, Walk.images]

/-- An entry that cannot be read is no image file. -/
theorem filesOf_snoc_none (seen : Walk) : filesOf (seen ++ [none]) = filesOf seen := by
  simp [filesOf, Walk.images]

theorem filesOf_snoc (seen : Walk) (v : Visit) : filesOf (seen ++ [some v]) =
    filesOf seen ++
      if v.isFile && Walk.isImage v.path then [(v.name, v.path.text)] else [] := by
  rw [filesOf_append]
  congr 1
  by_cases himage : (v.isFile && Walk.isImage v.path) = true <;>
    simp [filesOf, Walk.images, himage]

/-! ## The invariant of a scan -/

/-- A scan that has seen a part of its walk and was not disturbed: every batch that it has handed
out is full and was accepted, the batch that is filling is not full, and together they are the image
files seen so far. -/
structure Underway (size : Nat) (seen : Walk) (s : State) (l : Logged σ) : Prop where
  numbers : l.calls.map Call.number = List.range' 1 l.calls.length
  batches : l.calls.map Call.batch = s.sent
  full : ∀ batch ∈ s.sent, batch.length = size
  filling : s.filling.length < size
  files : (s.sent.flatten ++ s.filling).map fileOf = filesOf seen
  lowered : true ∉ l.flags
  accepted : ∀ call ∈ l.calls, call.accepted = true

/-- What a scan has handed out when it ends. -/
structure Chunks (size : Nat) (walk : Walk) (o : ScanOutcome) (l : Logged σ) : Prop where
  numbers : l.calls.map Call.number = List.range' 1 l.calls.length
  batches : l.calls.map Call.batch = o.batches
  full : ∀ batch ∈ o.batches.dropLast, batch.length = size
  last : ∀ batch ∈ o.batches, 0 < batch.length ∧ batch.length ≤ size
  initial : o.batches.flatten.map fileOf <+: filesOf walk
  whole : o.stopped = false → o.batches.flatten.map fileOf = filesOf walk
  cut : o.stopped = true → ∀ batch ∈ o.batches, batch.length = size
  disturbed : o.stopped = true ↔
    true ∈ l.flags ∨ ∃ call ∈ l.calls, call.batch.length = size ∧ call.accepted = false

namespace Underway

variable {seen rest : Walk} {s : State} {l : Logged σ} {v : Visit}

theorem start (hsize : 0 < size) (env : σ) :
    Underway size [] ⟨[], []⟩ (⟨env, [], []⟩ : Logged σ) where
  numbers := rfl
  batches := rfl
  full _ h := absurd h List.not_mem_nil
  filling := hsize
  files := rfl
  lowered := List.not_mem_nil
  accepted _ h := absurd h List.not_mem_nil

/-- The number of the next batch. -/
theorem length_calls (h : Underway size seen s l) : l.calls.length = s.sent.length := by
  rw [← h.batches, List.length_map]

/-! ### Entries of the walk -/

/-- The flag was found lowered, and the entry was passed over. -/
theorem skip (h : Underway size seen s l) {item : Option Visit}
    (hitem : filesOf (seen ++ [item]) = filesOf seen) (env : σ) :
    Underway size (seen ++ [item]) s { l with env, flags := l.flags ++ [false] } where
  numbers := h.numbers
  batches := h.batches
  full := h.full
  filling := h.filling
  files := h.files.trans hitem.symm
  lowered := by simpa using h.lowered
  accepted := h.accepted

/-- The files seen are those handed out and those filling when an image file was found. -/
theorem files_snoc (h : Underway size seen s l)
    (himage : (v.isFile && Walk.isImage v.path) = true) (downloaded : Option History.Download) :
    (s.sent.flatten ++ (s.filling ++ [foundWith v downloaded])).map fileOf =
      filesOf (seen ++ [some v]) := by
  rw [filesOf_snoc, if_pos himage, ← h.files]
  simp [fileOf, foundWith]

/-- An image file was added to the batch that is filling. -/
theorem fill (h : Underway size seen s l) (himage : (v.isFile && Walk.isImage v.path) = true)
    {downloaded : Option History.Download}
    (hfilling : (s.filling ++ [foundWith v downloaded]).length ≠ size) (env : σ) :
    Underway size (seen ++ [some v])
      { s with filling := s.filling ++ [foundWith v downloaded] }
      { l with env, flags := l.flags ++ [false] } where
  numbers := h.numbers
  batches := h.batches
  full := h.full
  filling := by
    have hfilled := h.filling
    simp only [List.length_append, List.length_singleton] at hfilling ⊢
    omega
  files := h.files_snoc himage downloaded
  lowered := by simpa using h.lowered
  accepted := h.accepted

/-- A batch more continues the numbers. -/
theorem numbers_snoc (h : Underway size seen s l) (batch : List Found) (accepted : Bool) :
    let calls := l.calls ++ [Call.mk (s.sent.length + 1) batch accepted]
    calls.map Call.number = List.range' 1 calls.length := by
  intro calls
  rw [List.map_append, h.numbers, h.length_calls, List.length_append, h.length_calls,
    List.length_singleton, List.range'_1_concat, Nat.add_comm 1]
  rfl

theorem full_snoc (h : Underway size seen s l) {batch : List Found} (hbatch : batch.length = size) :
    ∀ b ∈ s.sent ++ [batch], b.length = size := by
  intro b hb
  rcases List.mem_append.1 hb with hsent | hnew
  · exact h.full b hsent
  · rw [List.mem_singleton.1 hnew, hbatch]

/-- The batch has become full and was accepted. -/
theorem send (h : Underway size seen s l) (himage : (v.isFile && Walk.isImage v.path) = true)
    {downloaded : Option History.Download}
    (hfull : (s.filling ++ [foundWith v downloaded]).length = size) (env : σ) :
    let batch := s.filling ++ [foundWith v downloaded]
    Underway size (seen ++ [some v]) ⟨s.sent ++ [batch], []⟩
      ⟨env, l.flags ++ [false], l.calls ++ [⟨s.sent.length + 1, batch, true⟩]⟩ where
  numbers := h.numbers_snoc _ true
  batches := by simp [h.batches]
  full := h.full_snoc hfull
  filling := Nat.lt_of_le_of_lt (Nat.zero_le _) h.filling
  files := by
    rw [← h.files_snoc himage downloaded]
    simp
  lowered := by simpa using h.lowered
  accepted call hcall := by
    rcases List.mem_append.1 hcall with hcalls | hnew
    · exact h.accepted call hcalls
    · rw [List.mem_singleton.1 hnew]

/-! ### Exits -/

/-- A batch that was handed out is not empty, and not too large. -/
theorem bounds (h : Underway size seen s l) {batch : List Found} (hbatch : batch ∈ s.sent) :
    0 < batch.length ∧ batch.length ≤ size := by
  have hfilling := h.filling
  have hfull := h.full batch hbatch
  omega

/-- The flag was found raised. -/
theorem raised (h : Underway size seen s l) (rest : Walk) (env : σ) :
    Chunks size (seen ++ rest) ⟨s.sent, true⟩
      { l with env, flags := l.flags ++ [true] } where
  numbers := h.numbers
  batches := h.batches
  full batch hbatch := h.full batch (List.dropLast_subset _ hbatch)
  last _ hbatch := h.bounds hbatch
  initial := by
    rw [filesOf_append, ← h.files, List.map_append, List.append_assoc]
    exact List.prefix_append _ _
  whole hstopped := absurd hstopped (by simp)
  cut _ := h.full
  disturbed := by simp

/-- The batch has become full, and its receiver is gone. -/
theorem refused (h : Underway size seen s l) (himage : (v.isFile && Walk.isImage v.path) = true)
    {downloaded : Option History.Download}
    (hfull : (s.filling ++ [foundWith v downloaded]).length = size) (rest : Walk)
    (env : σ) :
    let batch := s.filling ++ [foundWith v downloaded]
    Chunks size (seen ++ some v :: rest) ⟨s.sent ++ [batch], true⟩
      ⟨env, l.flags ++ [false], l.calls ++ [⟨s.sent.length + 1, batch, false⟩]⟩ := by
  intro batch
  have hall : ∀ b ∈ s.sent ++ [batch], b.length = size := h.full_snoc hfull
  exact {
    numbers := h.numbers_snoc batch false
    batches := by simp [h.batches]
    full := fun b hb => hall b (List.dropLast_subset _ hb)
    last := fun b hb => by
      have hfilling := h.filling
      have hb := hall b hb
      omega
    initial := by
      rw [List.append_cons seen, filesOf_append, ← h.files_snoc himage downloaded,
        List.flatten_append, List.flatten_singleton]
      exact List.prefix_append _ _
    whole := fun hstopped => absurd hstopped (by simp)
    cut := fun _ => hall
    disturbed := by
      simp only [true_iff]
      exact Or.inr ⟨_, List.mem_append_right _ List.mem_cons_self, hfull, rfl⟩ }

/-- An undisturbed scan has no call of a full batch that was refused. -/
theorem not_disturbed (h : Underway size seen s l) :
    ¬ (true ∈ l.flags ∨ ∃ call ∈ l.calls, call.batch.length = size ∧ call.accepted = false) := by
  rintro (hraised | ⟨call, hcall, -, hrefused⟩)
  · exact h.lowered hraised
  · simp [h.accepted call hcall] at hrefused

/-- The walk has ended; what remains is handed out, and the answer does not matter. -/
theorem finished (h : Underway size seen s l) :
    Chunks size seen (finish (logged w) l s false).1 (finish (logged w) l s false).2 := by
  unfold finish
  by_cases hempty : s.filling.isEmpty = true
  · have hfiles : s.sent.flatten.map fileOf = filesOf seen := by
      rw [← h.files, List.isEmpty_iff.1 hempty, List.append_nil]
    rw [if_pos hempty]
    exact {
      numbers := h.numbers
      batches := h.batches
      full := fun batch hbatch => h.full batch (List.dropLast_subset _ hbatch)
      last := fun _ hbatch => h.bounds hbatch
      initial := hfiles ▸ List.prefix_refl _
      whole := fun _ => hfiles
      cut := fun hstopped => absurd hstopped (by simp)
      disturbed := by simpa using h.not_disturbed }
  · have hfiles : (s.sent ++ [s.filling]).flatten.map fileOf = filesOf seen := by
      rw [← h.files, List.flatten_append, List.flatten_singleton]
    rw [if_neg hempty]
    exact {
      numbers := h.numbers_snoc s.filling _
      batches := by simp [logged, h.batches]
      full := by simpa using h.full
      last := fun batch hbatch => by
        rcases List.mem_append.1 hbatch with hsent | hrest
        · exact h.bounds hsent
        · have hpos : 0 < s.filling.length :=
            List.length_pos_iff.2 fun hnil => hempty (List.isEmpty_iff.2 hnil)
          rw [List.mem_singleton.1 hrest]
          exact ⟨hpos, Nat.le_of_lt h.filling⟩
      initial := hfiles ▸ List.prefix_refl _
      whole := fun _ => hfiles
      cut := fun hstopped => absurd hstopped (by simp)
      disturbed := by
        simp only [Bool.false_eq_true, false_iff]
        rintro (hraised | ⟨call, hcall, hfull, hrefused⟩)
        · exact h.lowered hraised
        · rcases List.mem_append.1 hcall with hcalls | hlast
          · simp [h.accepted call hcalls] at hrefused
          · obtain rfl := List.mem_singleton.1 hlast
            exact absurd hfull (Nat.ne_of_lt h.filling) }

/-- From any point of the walk on, the scan ends as it should. -/
theorem scanRest (h : Underway size seen s l) (rest : Walk) :
    Chunks size (seen ++ rest) (scanRest (logged w) size rest s l).1
      (scanRest (logged w) size rest s l).2 := by
  induction rest generalizing seen s l with
  | nil =>
    rw [List.append_nil]
    exact h.finished
  | cons item rest ih =>
    have hseen : seen ++ item :: rest = (seen ++ [item]) ++ rest := by simp
    simp only [Scan.scanRest]
    by_cases hstop : (w.isStopped l.env).1 = true
    · simp only [logged, hstop, if_true]
      exact h.raised _ _
    · simp only [logged, hstop, if_false, Bool.false_eq_true]
      cases item with
      | none =>
        rw [hseen]
        exact ih (h.skip (filesOf_snoc_none seen) _)
      | some v =>
        dsimp only
        split_ifs with himage hfull haccepted
        · rw [hseen, haccepted]
          exact ih (h.send himage hfull _)
        · rw [Bool.eq_false_iff.2 haccepted]
          exact h.refused himage hfull rest _
        · rw [hseen]
          exact ih (h.fill himage hfull _)
        · have hitem : filesOf (seen ++ [some v]) = filesOf seen := by
            rw [filesOf_snoc, if_neg himage, List.append_nil]
          rw [hseen]
          exact ih (h.skip hitem _)

end Underway

/-! ## Whole scans -/

/-- Whatever the stop flag, the record of downloads and the receiver do, a scan hands out batches
numbered from one.  All of them but possibly the last have the size asked for, at least one, and
none is empty.  Their images are image files of the walk from its first one on, in its order, with
the names and paths of the walk.  The scan is stopped if and only if the flag was found raised or a
full batch was refused.  If it was not stopped, the images are all image files of the walk; if it
was, all batches are full. -/
theorem batches_chunk_walk (w : Surroundings σ) (batchSize : Nat) (walk : Walk) (env : σ) :
    let size := max batchSize 1
    let result := run (logged w) batchSize walk ⟨env, [], []⟩
    let o := result.1
    let l := result.2
    (o, l.env) = run w batchSize walk env ∧
    l.calls.map Call.number = List.range' 1 l.calls.length ∧
    l.calls.map Call.batch = o.batches ∧
    (∀ batch ∈ o.batches.dropLast, batch.length = size) ∧
    (∀ batch ∈ o.batches, 0 < batch.length ∧ batch.length ≤ size) ∧
    o.batches.flatten.map fileOf <+: filesOf walk ∧
    o.count = (l.calls.map fun call => call.batch.length).sum ∧
    o.batches.length = l.calls.length ∧
    (o.stopped = true ↔
      true ∈ l.flags ∨ ∃ call ∈ l.calls, call.batch.length = size ∧ call.accepted = false) ∧
    (o.stopped = false → o.batches.flatten.map fileOf = filesOf walk) ∧
    (o.stopped = true → ∀ batch ∈ o.batches, batch.length = size) := by
  intro size result o l
  have hsize : 0 < size := Nat.lt_of_lt_of_le Nat.zero_lt_one (Nat.le_max_right batchSize 1)
  have h : Chunks size walk o l := (Underway.start hsize env).scanRest walk
  have hcount : o.count = (l.calls.map fun call => call.batch.length).sum := by
    rw [ScanOutcome.count, ← h.batches, List.length_flatten, List.map_map]
    rfl
  have hlength : o.batches.length = l.calls.length := by rw [← h.batches, List.length_map]
  exact ⟨scanRest_logged w size walk ⟨[], []⟩ ⟨env, [], []⟩, h.numbers, h.batches, h.full, h.last,
    h.initial, hcount, hlength, h.disturbed, h.whole, h.cut⟩

end PhotoIntake.Scan
