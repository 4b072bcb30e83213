import PhotoIntake.Proofs.Session.Arrivals
import PhotoIntake.Proofs.Source.Scanning
import PhotoIntake.Session.Run

/-!
# What a session gathers

A session that nobody cancels gathers all images of its source, in the order of the scan, and then a
capture date for each of the selected ones.

* `result_gatherImages`: the images of all batches are gathered.
* `result_gatherDates`: every selected image gets its date.
* `result_gather`: what the session goes on with.
-/

namespace PhotoIntake.Session

/-! ## Images -/

/-- The images of all batches are gathered, in their order. -/
theorem result_gatherImages (o : Options) (batches : List (List Found)) (images : List Image) :
    (gatherImages o (scanEvents ⟨batches, false⟩) images).result =
      (.complete (images ++ batches.flatten.map (imageOf o)), []) := by
  induction batches generalizing images with
  | nil => simp [scanEvents, gatherImages]
  | cons batch rest ih =>
    rw [scanEvents, List.map_cons, List.cons_append, gatherImages]
    simp only [Dialogue.result_ask, Bool.false_eq_true, if_false, Dialogue.result_publish]
    show (gatherImages o (scanEvents ⟨rest, false⟩) _).result = _
    rw [ih, List.flatten_cons, List.map_append, List.append_assoc]

/-! ## Dates -/

/-- The event of a date. -/
def capturedEvent (c : ImageKey × CaptureDate) : Event :=
  .captured c.1 c.2

theorem arrivals_capturedEvent (captures : List (ImageKey × CaptureDate)) :
    arrivals (captures.map capturedEvent) = captures := by
  rw [arrivals, List.filterMap_map]
  exact List.filterMap_some

/-- Dates of all keys that are asked for, each once, are all awaited and set. -/
theorem result_gatherDates {captures : List (ImageKey × CaptureDate)} {images : List Image}
    (hkeys : captures.map Prod.fst = wantedKeys images)
    (hfresh : ∀ image ∈ images, image.isLoaded = false) :
    (gatherDates (wantedKeys images).length (captures.map capturedEvent) 0 images).result =
      (.complete (images.map (dated captures)), []) := by
  have hcovers : Covers images (captures.map capturedEvent) :=
    covers_iff.2 fun key hkey => by rwa [Arrived, arrivals_capturedEvent, hkeys]
  obtain ⟨before, after, counts, hsuffices, -, hrun⟩ :=
    run_gatherDates hfresh [] hcovers
  obtain ⟨taken, left, rfl, rfl, rfl⟩ := List.map_eq_append_iff.1 hsuffices.split
  -- a key of what is left would have had its date before
  obtain rfl : left = [] := by
    refine List.eq_nil_iff_forall_not_mem.2 fun c hc => ?_
    have hnodup : ((taken ++ left).map Prod.fst).Nodup := hkeys ▸ Mover.nodup_firstSeen _
    rw [List.map_append, List.nodup_append] at hnodup
    have hleft : c.1 ∈ left.map Prod.fst := List.mem_map_of_mem hc
    have htaken : Arrived (taken.map capturedEvent) c.1 :=
      covers_iff.1 hsuffices.covers c.1 (hkeys ▸ by simp [hleft])
    rw [Arrived, arrivals_capturedEvent] at htaken
    exact hnodup.2.2 c.1 htaken c.1 hleft rfl
  rw [arrivedCount_nil, arrivals_nil, map_dated_nil, List.nil_append,
    arrivals_capturedEvent] at hrun
  rw [Dialogue.result, hrun, List.append_nil]
  rfl

variable {σ : Type}

/-- The events so far and those of one request more. -/
def loadOne (s : Session σ) (loaded : List Event × σ) (key : ImageKey) : List Event × σ :=
  let answer := Metadata.Loader.load s.reader loaded.2 (.loadDate key)
  (loaded.1 ++ answer.1.map eventOf, answer.2)

theorem loadDates_eq_foldl (s : Session σ) (keys : List ImageKey) :
    s.loadDates keys = ((keys.foldl s.loadOne ([], s.readerState)).1,
      { s with readerState := (keys.foldl s.loadOne ([], s.readerState)).2 }) :=
  rfl

/-- The loader answers a request with one date. -/
theorem loadOne_eq (s : Session σ) (loaded : List Event × σ) (key : ImageKey) :
    ∃ date readerState,
      s.loadOne loaded key = (loaded.1 ++ [capturedEvent (key, date)], readerState) :=
  ⟨_, _, rfl⟩

/-- Requests in turn are answered in turn. -/
theorem foldl_loadOne (s : Session σ) (keys : List ImageKey) (loaded : List Event × σ) :
    ∃ captures : List (ImageKey × CaptureDate),
      (keys.foldl s.loadOne loaded).1 = loaded.1 ++ captures.map capturedEvent ∧
        captures.map Prod.fst = keys := by
  induction keys generalizing loaded with
  | nil => exact ⟨[], by simp, rfl⟩
  | cons key rest ih =>
    obtain ⟨date, readerState, hone⟩ := s.loadOne_eq loaded key
    obtain ⟨captures, hrest, hkeys⟩ := ih (s.loadOne loaded key)
    refine ⟨(key, date) :: captures, ?_, by rw [List.map_cons, hkeys]⟩
    rw [List.foldl_cons, hrest, hone, List.map_cons, List.append_assoc, List.singleton_append]

/-- The loader answers every request with one date. -/
theorem loadDates_eq (s : Session σ) (keys : List ImageKey) :
    ∃ (captures : List (ImageKey × CaptureDate)) (readerState : σ), s.loadDates keys =
        (captures.map capturedEvent, { s with readerState }) ∧ captures.map Prod.fst = keys := by
  obtain ⟨captures, hevents, hkeys⟩ := s.foldl_loadOne keys ([], s.readerState)
  refine ⟨captures, (keys.foldl s.loadOne ([], s.readerState)).2, ?_, hkeys⟩
  rw [loadDates_eq_foldl, hevents]
  rfl

/-! ## The whole of it -/

/-- The image files that a session finds. -/
def visits (s : Session σ) (o : Options) : List Visit :=
  Walk.images (Walk.ofSource s.files o.source o.withSubfolders)

/-- What the record of downloads knows of an image file. -/
def earlier (s : Session σ) (v : Visit) : Option History.Download :=
  Scan.lookupIn (s.store.map (·.history)) s.files v.path

/-- The image of a file that was found, before its date is known. -/
def imageAt (s : Session σ) (o : Options) (v : Visit) : Image :=
  imageOf o ⟨v.name, v.path.text, s.earlier v⟩

@[simp] theorem undated_imageAt (s : Session σ) (o : Options) (v : Visit) :
    undated (s.imageAt o v) = s.imageAt o v := by
  unfold imageAt imageOf
  simp only
  split <;> rfl

@[simp] theorem key_imageAt (s : Session σ) (o : Options) (v : Visit) :
    (s.imageAt o v).key = v.path.text := by
  unfold imageAt imageOf
  simp only
  split <;> rfl

@[simp] theorem isLoaded_imageAt (s : Session σ) (o : Options) (v : Visit) :
    (s.imageAt o v).isLoaded = false := by
  unfold imageAt imageOf
  simp only
  split <;> rfl

/-- An image is selected unless it was downloaded before and the session skips those. -/
theorem isSelected_imageAt (s : Session σ) (o : Options) (v : Visit) :
    (s.imageAt o v).isSelected = !(o.skipsDownloaded && (s.earlier v).isSome) := by
  unfold imageAt imageOf
  cases hearlier : s.earlier v <;> simp [Image.ofName]

/-- A session that is not cancelled goes on with the images that it found, each of the selected ones
with a date and no other one. -/
theorem result_gather (s : Session σ) (o : Options) :
    ∃ images readerState, (s.gather o).result = (.complete images, { s with readerState }) ∧
      images.map undated = (s.visits o).map (s.imageAt o) ∧
      ∀ image ∈ images, image.isLoaded = image.isSelected := by
  obtain ⟨batches, hwhole, hbatches⟩ := Scan.whole_eq s.files (s.store.map (·.history)) o.source
    o.withSubfolders s.batchSize
  have himages : batches.flatten.map (imageOf o) = (s.visits o).map (s.imageAt o) := by
    rw [hbatches, List.map_map]
    rfl
  obtain ⟨captures, readerState, hload, hkeys⟩ :=
    s.loadDates_eq (wantedKeys ((s.visits o).map (s.imageAt o)))
  have hfresh : ∀ image ∈ (s.visits o).map (s.imageAt o), image.isLoaded = false := by
    intro image himage
    obtain ⟨v, -, rfl⟩ := List.mem_map.1 himage
    exact s.isLoaded_imageAt o v
  refine ⟨((s.visits o).map (s.imageAt o)).map (dated captures), readerState, ?_, ?_, ?_⟩
  · simp only [gather, hwhole, Dialogue.result_bind, result_gatherImages, List.nil_append, himages,
      hload]
    rw [Dialogue.result_publish, result_gatherDates hkeys hfresh, Dialogue.result_pure]
  · rw [List.map_map, List.map_map]
    refine List.map_congr_left fun v _ => ?_
    simp
  · intro image himage
    obtain ⟨found, hfound, rfl⟩ := List.mem_map.1 himage
    obtain ⟨v, -, rfl⟩ := List.mem_map.1 hfound
    rw [isLoaded_dated, isLoaded_imageAt, Bool.false_or,
      isSelected_dated, hkeys]
    cases hselected : (s.imageAt o v).isSelected with
    | false => rfl
    | true =>
      rw [Bool.true_and, List.contains_iff_mem]
      exact mem_wantedKeys.2 ⟨_, hfound, hselected, rfl⟩

end PhotoIntake.Session
