import PhotoIntake.Proofs.Download.Folders
import PhotoIntake.Proofs.Worker.Course
import PhotoIntake.Session.Gathering
import Mathlib.Data.List.Basic
import Mathlib.Data.List.Perm.Basic

/-!
# Dates in the order of their arrival

The loader answers in an order of its own, and events of other workers and of earlier requests are
among its answers.  What gathering has come to is a function of the events that it has taken: the
images have their last dates among these, and the number done is that of the keys that have one.

* `captured_dated`, `isLoaded_dated`: which date an image has, and when it has one.
* `run_gatherDates_pass`, `run_gatherDates_take`: what gathering does with one event.
* `run_gatherDates`: from the events taken so far, gathering takes as many more as are needed to
  cover the images.
* `gatherDates_of_covers`: with a date for each selected image among the events, gathering ends.
-/

namespace PhotoIntake.Session

/-! ## Dates of images -/

/-- The image without its date. -/
def undated (image : Image) : Image :=
  { image with captured := none }

/-- The image with a date, if it is selected and the date is that of its key. -/
def dateOne (c : ImageKey × CaptureDate) (image : Image) : Image :=
  if image.isSelected && image.key == c.1 then { image with captured := some c.2 } else image

/-- The image with all dates of its key in turn. -/
def dated (captures : List (ImageKey × CaptureDate)) (image : Image) : Image :=
  captures.foldl (fun image c => dateOne c image) image

@[simp] theorem undated_dateOne (c : ImageKey × CaptureDate) (image : Image) :
    undated (dateOne c image) = undated image := by
  unfold dateOne
  split <;> rfl

/-- Images that differ in their dates alone are selected alike. -/
theorem isSelected_of_undated_eq {image image' : Image} (h : undated image = undated image') :
    image.isSelected = image'.isSelected := by
  show (undated image).isSelected = (undated image').isSelected
  rw [h]

theorem key_of_undated_eq {image image' : Image} (h : undated image = undated image') :
    image.key = image'.key := by
  show (undated image).key = (undated image').key
  rw [h]

@[simp] theorem undated_dated (captures : List (ImageKey × CaptureDate)) (image : Image) :
    undated (dated captures image) = undated image := by
  induction captures generalizing image with
  | nil => rfl
  | cons c rest ih => exact (ih (dateOne c image)).trans (undated_dateOne c image)

@[simp] theorem isSelected_dated (captures : List (ImageKey × CaptureDate)) (image : Image) :
    (dated captures image).isSelected = image.isSelected :=
  isSelected_of_undated_eq (undated_dated captures image)

@[simp] theorem key_dated (captures : List (ImageKey × CaptureDate)) (image : Image) :
    (dated captures image).key = image.key :=
  key_of_undated_eq (undated_dated captures image)

theorem setDate_eq (c : ImageKey × CaptureDate) (images : List Image) :
    setDate c.1 c.2 images = images.map (dateOne c) :=
  rfl

theorem mem_wantedKeys {images : List Image} {key : ImageKey} :
    key ∈ wantedKeys images ↔ ∃ image ∈ images, image.isSelected = true ∧ image.key = key := by
  rw [wantedKeys, Mover.mem_firstSeen, List.mem_map]
  simp only [List.mem_filter, and_assoc]

@[simp] theorem map_dated_nil (images : List Image) : images.map (dated []) = images :=
  List.map_id images

theorem dated_concat (captures : List (ImageKey × CaptureDate)) (c : ImageKey × CaptureDate)
    (image : Image) : dated (captures ++ [c]) image = dateOne c (dated captures image) := by
  rw [dated, List.foldl_append]
  rfl

/-- The date of a selected image is the last one of its key. -/
theorem captured_dated (captures : List (ImageKey × CaptureDate)) (image : Image) :
    (dated captures image).captured =
      if image.isSelected then (captures.reverse.lookup image.key).or image.captured
      else image.captured := by
  induction captures using List.reverseRecOn with
  | nil => simp [dated]
  | append_singleton captures c ih =>
    rw [dated_concat, List.reverse_append, List.reverse_singleton, List.singleton_append,
      List.lookup_cons, dateOne, isSelected_dated, key_dated]
    cases hselected : image.isSelected <;> cases image.key == c.1 <;> simp [hselected, ih]

theorem isSome_lookup_reverse (captures : List (ImageKey × CaptureDate)) (key : ImageKey) :
    (captures.reverse.lookup key).isSome = (captures.map Prod.fst).contains key := by
  rw [Bool.eq_iff_iff, List.lookup_isSome_iff, List.contains_iff_mem, List.mem_map]
  simp only [List.mem_reverse, beq_iff_eq]
  exact exists_congr fun c => and_congr_right fun _ => eq_comm

/-- An image is loaded once a date of its key has come, if it is selected. -/
theorem isLoaded_dated (captures : List (ImageKey × CaptureDate)) (image : Image) :
    (dated captures image).isLoaded =
      (image.isLoaded || (image.isSelected && (captures.map Prod.fst).contains image.key)) := by
  rw [Image.isLoaded, captured_dated, Image.isLoaded]
  cases image.isSelected with
  | false => simp
  | true =>
    rw [if_pos rfl, Option.isSome_or, isSome_lookup_reverse, Bool.true_and, Bool.or_comm]

/-- Dates change nothing else of an image. -/
theorem dated_eq (captures : List (ImageKey × CaptureDate)) (image : Image) :
    dated captures image = { image with captured := (dated captures image).captured } :=
  congrArg (fun undated : Image => { undated with captured := (dated captures image).captured })
    (undated_dated captures image)

theorem dateOne_of_not_wanted {c : ImageKey × CaptureDate} {image : Image}
    (h : ¬ (image.isSelected = true ∧ image.key = c.1)) : dateOne c image = image := by
  rw [dateOne, if_neg (by simpa using h)]

@[simp] theorem wantedKeys_dated (captures : List (ImageKey × CaptureDate)) (images : List Image) :
    wantedKeys (images.map (dated captures)) = wantedKeys images := by
  have hselected : ((fun image : Image => image.isSelected) ∘ dated captures) = (·.isSelected) :=
    funext (isSelected_dated captures)
  have hkey : Image.key ∘ dated captures = Image.key := funext (key_dated captures)
  rw [wantedKeys, wantedKeys, List.filter_map, List.map_map, hselected, hkey]

/-- Images with keys of their own ask for as many dates as are selected. -/
theorem length_wantedKeys {images : List Image} (h : (images.map Image.key).Nodup) :
    (wantedKeys images).length = images.countP (·.isSelected) := by
  have hselected : ((images.filter (·.isSelected)).map Image.key).Nodup :=
    h.sublist (List.filter_sublist.map Image.key)
  rw [wantedKeys, Mover.firstSeen_of_nodup hselected, List.length_map, List.countP_eq_length_filter]

/-! ## Dates among events -/

/-- The date that an event brings, with its key. -/
def Event.date? : Event → Option (ImageKey × CaptureDate)
  | .captured key date => some (key, date)
  | _ => none

theorem eq_captured_of_date? {event : Event} {c : ImageKey × CaptureDate}
    (h : event.date? = some c) : event = .captured c.1 c.2 := by
  cases event with
  | captured key date => exact Option.some.inj h ▸ rfl
  | images _ | scanComplete _ | other => cases h

/-- The dates that events bring, in the order of their arrival. -/
def arrivals (events : List Event) : List (ImageKey × CaptureDate) :=
  events.filterMap Event.date?

/-- The last date that events bring for a key. -/
def lastDate? (events : List Event) (key : ImageKey) : Option CaptureDate :=
  (arrivals events).reverse.lookup key

/-- The events bring a date for the key. -/
def Arrived (events : List Event) (key : ImageKey) : Prop :=
  key ∈ (arrivals events).map Prod.fst

instance (events : List Event) (key : ImageKey) : Decidable (Arrived events key) :=
  inferInstanceAs (Decidable (key ∈ (arrivals events).map Prod.fst))

/-- The events bring a date for each selected image. -/
def Covers (images : List Image) (events : List Event) : Prop :=
  ∀ image ∈ images, image.isSelected = true → Arrived events image.key

instance (images : List Image) (events : List Event) : Decidable (Covers images events) :=
  inferInstanceAs (Decidable (∀ image ∈ images, image.isSelected = true → _))

/-- The event brings no date of a key that is asked for. -/
def Event.Passes (images : List Image) (event : Event) : Prop :=
  ∀ c, event.date? = some c → c.1 ∉ wantedKeys images

/-- How many of the keys that are asked for have a date. -/
def arrivedCount (images : List Image) (events : List Event) : Nat :=
  (wantedKeys images).countP fun key => Arrived events key

@[simp] theorem arrivals_nil : arrivals [] = [] :=
  rfl

@[simp] theorem arrivals_append (events events' : List Event) :
    arrivals (events ++ events') = arrivals events ++ arrivals events' :=
  List.filterMap_append

theorem arrivals_concat (events : List Event) (event : Event) :
    arrivals (events ++ [event]) = arrivals events ++ event.date?.toList := by
  rw [arrivals_append]
  cases hdate : event.date? <;> simp [arrivals, hdate]

theorem arrived_concat {events : List Event} {event : Event} {key : ImageKey} :
    Arrived (events ++ [event]) key ↔
      Arrived events key ∨ ∃ c, event.date? = some c ∧ key = c.1 := by
  rw [Arrived, arrivals_concat, List.map_append, List.mem_append, Arrived]
  cases event.date? <;> simp

theorem isSome_lastDate?_iff {events : List Event} {key : ImageKey} :
    (lastDate? events key).isSome ↔ Arrived events key := by
  rw [lastDate?, isSome_lookup_reverse, List.contains_iff_mem, Arrived]

theorem covers_iff {images : List Image} {events : List Event} :
    Covers images events ↔ ∀ key ∈ wantedKeys images, Arrived events key := by
  simp only [Covers, mem_wantedKeys]
  exact ⟨fun h key ⟨image, himage, hselected, hkey⟩ => hkey ▸ h image himage hselected,
    fun h image himage hselected => h image.key ⟨image, himage, hselected, rfl⟩⟩

@[simp] theorem arrivedCount_nil (images : List Image) : arrivedCount images [] = 0 :=
  List.countP_eq_zero.2 fun key _ => by simp [Arrived]

theorem arrivedCount_le (images : List Image) (events : List Event) :
    arrivedCount images events ≤ (wantedKeys images).length :=
  List.countP_le_length

/-- All keys have a date when as many have one as are asked for. -/
theorem covers_iff_le_arrivedCount {images : List Image} {events : List Event} :
    Covers images events ↔ (wantedKeys images).length ≤ arrivedCount images events := by
  rw [covers_iff, arrivedCount]
  have hall := List.countP_eq_length (l := wantedKeys images)
    (p := fun key => decide (Arrived events key))
  simp only [decide_eq_true_eq] at hall
  rw [← hall]
  exact ⟨fun h => h.ge, fun h => List.countP_le_length.antisymm h⟩

variable {images : List Image} {seen : List Event} {event : Event}

theorem arrivedCount_pass (hpass : event.Passes images) :
    arrivedCount images (seen ++ [event]) = arrivedCount images seen := by
  refine List.countP_congr fun key hkey => ?_
  simp only [decide_eq_true_eq, arrived_concat]
  exact ⟨fun h => h.elim id fun ⟨c, hdate, heq⟩ => absurd (heq ▸ hkey) (hpass c hdate), Or.inl⟩

theorem map_dated_pass (hpass : event.Passes images) :
    images.map (dated (arrivals (seen ++ [event]))) = images.map (dated (arrivals seen)) := by
  refine List.map_congr_left fun image himage => ?_
  rw [arrivals_concat]
  cases hdate : event.date? with
  | none => rw [Option.toList_none, List.append_nil]
  | some c =>
    rw [Option.toList_some, dated_concat]
    refine dateOne_of_not_wanted fun ⟨hselected, hkey⟩ => hpass c hdate ?_
    rw [isSelected_dated] at hselected
    rw [key_dated] at hkey
    exact mem_wantedKeys.2 ⟨image, himage, hselected, hkey⟩

theorem map_dated_take {c : ImageKey × CaptureDate} (hdate : event.date? = some c) :
    images.map (dated (arrivals (seen ++ [event]))) =
      (images.map (dated (arrivals seen))).map (dateOne c) := by
  rw [List.map_map, arrivals_concat, hdate]
  exact List.map_congr_left fun image _ => dated_concat _ c image

/-- With one date more, there is one key more unless this one had a date before. -/
theorem arrivedCount_take (seen : List Event) {c : ImageKey × CaptureDate}
    (hdate : event.date? = some c) (hwanted : c.1 ∈ wantedKeys images) :
    arrivedCount images (seen ++ [event]) =
      if Arrived seen c.1 then arrivedCount images seen else arrivedCount images seen + 1 := by
  have hmore (key : ImageKey) : Arrived (seen ++ [event]) key ↔ Arrived seen key ∨ key = c.1 := by
    simp [arrived_concat, hdate]
  split_ifs with hold
  · refine List.countP_congr fun key _ => ?_
    simp only [decide_eq_true_eq, hmore]
    exact ⟨fun h => h.elim id fun hkey => hkey ▸ hold, Or.inl⟩
  · -- the key has its one place among those wanted, and the others have dates as before
    have hperm := List.perm_cons_erase hwanted
    have hothers :
        ((wantedKeys images).erase c.1).countP (fun key => Arrived (seen ++ [event]) key) =
          ((wantedKeys images).erase c.1).countP fun key => Arrived seen key := by
      refine List.countP_congr fun key hkey => ?_
      have hne : key ≠ c.1 := ((Mover.nodup_firstSeen _).mem_erase_iff.1 hkey).1
      simp only [decide_eq_true_eq, hmore, hne, or_false]
    rw [arrivedCount, arrivedCount, hperm.countP_eq, hperm.countP_eq, List.countP_cons_of_pos,
      List.countP_cons_of_neg, hothers]
    · simpa using hold
    · simp [hmore]

/-- Where no image had a date at first, one awaits a date of its key until the first one comes. -/
theorem any_awaits {key : ImageKey} (hwanted : key ∈ wantedKeys images)
    (hfresh : ∀ image ∈ images, image.isLoaded = false) :
    (images.map (dated (arrivals seen))).any (awaits key) = true ↔ ¬ Arrived seen key := by
  have hawaits {image : Image} (himage : image ∈ images) :
      awaits key (dated (arrivals seen) image) = true ↔
        image.isSelected = true ∧ image.key = key ∧ ¬ Arrived seen image.key := by
    rw [awaits, isLoaded_dated, hfresh image himage, isSelected_dated, key_dated]
    cases image.isSelected <;> simp [Arrived]
  obtain ⟨image, himage, hselected, hkey⟩ := mem_wantedKeys.1 hwanted
  simp only [List.any_map, List.any_eq_true, Function.comp]
  constructor
  · rintro ⟨image', himage', h⟩
    obtain ⟨-, rfl, hnew⟩ := (hawaits himage').1 h
    exact hnew
  · exact fun h => ⟨image, himage, (hawaits himage).2 ⟨hselected, hkey, hkey ▸ h⟩⟩

/-! ## One event -/

variable {total done : Nat} {rest : List Event}

/-- An event without a date, or with one that was not asked for, is passed over. -/
theorem run_gatherDates_pass (hdone : done < total) (hpass : event.Passes images) :
    (gatherDates total (event :: rest) done images).run (fun _ => false) 0 =
      (gatherDates total rest done images).run (fun _ => false) 0 := by
  cases event with
  | captured key date =>
    have hkey : (wantedKeys images).contains key = false := by
      simpa using hpass (key, date) rfl
    rw [gatherDates, if_neg (Nat.not_le.2 hdone), Dialogue.run]
    simp only [Bool.false_eq_true, if_false, hkey]
    exact Dialogue.run_const false _ _ _
  | images _ | scanComplete _ | other =>
    rw [gatherDates, if_neg (Nat.not_le.2 hdone), Dialogue.run]
    · exact Dialogue.run_const false _ _ _
    · exact fun _ _ => Event.noConfusion

/-- A date that was asked for is set.  It counts if no other one of its key came before. -/
theorem run_gatherDates_take {c : ImageKey × CaptureDate} (hdone : done < total)
    (hdate : event.date? = some c) (hwanted : c.1 ∈ wantedKeys images) :
    (gatherDates total (event :: rest) done images).run (fun _ => false) 0 =
      let done' := if images.any (awaits c.1) then done + 1 else done
      let later := (gatherDates total rest done' (images.map (dateOne c))).run (fun _ => false) 0
      (later.1, .dated done' total :: later.2) := by
  obtain rfl : event = .captured c.1 c.2 := eq_captured_of_date? hdate
  have hkey : (wantedKeys images).contains c.1 = true := by simpa using hwanted
  rw [gatherDates, if_neg (Nat.not_le.2 hdone), Dialogue.run]
  simp only [Bool.false_eq_true, if_false, hkey, if_true, setDate_eq]
  rw [Dialogue.run_const false _ 0, Dialogue.run]

/-- With all dates there, gathering ends at once. -/
theorem gatherDates_covered (h : Covers images seen) (rest : List Event) (images' : List Image) :
    gatherDates (wantedKeys images).length rest (arrivedCount images seen) images' =
      .done (.complete images', rest) := by
  unfold gatherDates
  rw [if_pos (covers_iff_le_arrivedCount.1 h)]

/-! ## All events -/

/-- The first events of the rest are just enough to cover the images, with those seen before. -/
structure Suffices (images : List Image) (seen rest before after : List Event) : Prop where
  split : rest = before ++ after
  covers : Covers images (seen ++ before)
  least : ∀ k < before.length, ¬ Covers images (seen ++ before.take k)

theorem Suffices.nil (h : Covers images seen) :
    Suffices images seen rest [] rest where
  split := rfl
  covers := by rwa [List.append_nil]
  least := fun k hk => absurd hk (Nat.not_lt_zero k)

theorem Suffices.cons {before after : List Event}
    (h : Suffices images (seen ++ [event]) rest before after) (hseen : ¬ Covers images seen) :
    Suffices images seen (event :: rest) (event :: before) after where
  split := by rw [h.split, List.cons_append]
  covers := by simpa using h.covers
  least
    | 0, _ => by simpa using hseen
    | k + 1, hk => by simpa using h.least k (Nat.lt_of_succ_lt_succ hk)

/-- Counts from one number on never fall, stay within the total and come to it. -/
structure Tells (total done : Nat) (counts : List Nat) : Prop where
  ordered : (done :: counts).IsChain (· ≤ ·)
  bounded : ∀ n ∈ done :: counts, n ≤ total
  last : (done :: counts).getLast? = some total

theorem Tells.of_covers (h : Covers images seen) :
    Tells (wantedKeys images).length (arrivedCount images seen) [] where
  ordered := .singleton _
  bounded := List.forall_mem_singleton.2 (arrivedCount_le images seen)
  last := congrArg some ((arrivedCount_le images seen).antisymm (covers_iff_le_arrivedCount.1 h))

theorem Tells.cons {done' : Nat} {counts : List Nat} (h : Tells total done' counts)
    (hle : done ≤ done') : Tells total done (done' :: counts) where
  ordered := h.ordered.cons_cons hle
  bounded := List.forall_mem_cons.2 ⟨hle.trans (h.bounded _ List.mem_cons_self), h.bounded⟩
  last := by rw [List.getLast?_cons_cons, h.last]

/-- What gathering comes to from the events seen on: it takes of the rest just what is needed to
cover the images, and tells each count. -/
theorem run_gatherDates (hfresh : ∀ image ∈ images, image.isLoaded = false) (seen : List Event)
    (hcovers : Covers images (seen ++ rest)) :
    ∃ before after counts, Suffices images seen rest before after ∧
      Tells (wantedKeys images).length (arrivedCount images seen) counts ∧
      (gatherDates (wantedKeys images).length rest (arrivedCount images seen)
          (images.map (dated (arrivals seen)))).run (fun _ => false) 0 =
        ((.complete (images.map (dated (arrivals (seen ++ before)))), after),
          counts.map (.dated · (wantedKeys images).length)) := by
  induction rest generalizing seen with
  | nil =>
    have hseen : Covers images seen := by simpa using hcovers
    refine ⟨[], [], [], .nil hseen, .of_covers hseen, ?_⟩
    rw [gatherDates_covered hseen, List.append_nil]
    rfl
  | cons event rest ih =>
    by_cases hseen : Covers images seen
    · refine ⟨[], event :: rest, [], .nil hseen, .of_covers hseen, ?_⟩
      rw [gatherDates_covered hseen, List.append_nil]
      rfl
    have hdone : arrivedCount images seen < (wantedKeys images).length :=
      Nat.not_le.1 fun hle => hseen (covers_iff_le_arrivedCount.2 hle)
    obtain ⟨before, after, counts, hsuffices, htells, hrun⟩ :=
      ih (seen ++ [event]) (by simpa using hcovers)
    rw [List.append_assoc, List.singleton_append] at hrun
    by_cases hpass : event.Passes images
    · refine ⟨event :: before, after, counts, hsuffices.cons hseen,
        arrivedCount_pass hpass ▸ htells, ?_⟩
      rw [run_gatherDates_pass hdone, ← map_dated_pass hpass, ← arrivedCount_pass hpass, hrun]
      rwa [Event.Passes, wantedKeys_dated]
    · obtain ⟨c, hdate, hwanted⟩ : ∃ c, event.date? = some c ∧ c.1 ∈ wantedKeys images := by
        simpa [Event.Passes] using hpass
      have hcount := arrivedCount_take seen hdate hwanted
      refine ⟨event :: before, after, arrivedCount images (seen ++ [event]) :: counts,
        hsuffices.cons hseen, htells.cons ?_, ?_⟩
      · rw [hcount]
        split_ifs
        · rfl
        · exact Nat.le_succ _
      · rw [run_gatherDates_take hdone hdate (by rwa [wantedKeys_dated])]
        simp only [any_awaits hwanted hfresh, ite_not, ← hcount, ← map_dated_take hdate, hrun,
          List.map_cons]

/-! ## Whatever the order -/

/-- What gathering makes of an image: a selected one has its last date among the events and is a
candidate, another one stays as it was. -/
structure LastDated (events : List Event) (image image' : Image) : Prop where
  selected : image.isSelected = true → image'.isCandidate = true ∧
    ∃ date, lastDate? events image.key = some date ∧ image' = { image with captured := some date }
  unselected : image.isSelected = false → image' = image

theorem lastDated_dated {events : List Event} {image : Image}
    (harrived : image.isSelected = true → Arrived events image.key) :
    LastDated events image (dated (arrivals events) image) where
  selected := by
    intro hselected
    obtain ⟨date, hdate⟩ := Option.isSome_iff_exists.1
      (isSome_lastDate?_iff.2 (harrived hselected))
    have hcaptured : (dated (arrivals events) image).captured = some date := by
      rw [captured_dated, if_pos hselected, ← lastDate?, hdate, Option.some_or]
    have himage := dated_eq (arrivals events) image
    rw [hcaptured] at himage
    exact ⟨by rw [himage]; exact hselected, date, hdate, himage⟩
  unselected := by
    intro hunselected
    rw [dated_eq, captured_dated, if_neg (by simp [hunselected])]

/-- Images with keys of their own and without dates are all gathered, whatever else comes and in
whatever order, when a date for each selected one is among the events.  Gathering takes the fewest
first events with such dates and leaves the others.  Then each selected image has its last date
among those taken and is a candidate, and the others are as before.  The numbers told go from
nothing to that of the selected images and never fall. -/
theorem gatherDates_of_covers (images : List Image) (events : List Event)
    (hkeys : (images.map Image.key).Nodup) (hfresh : ∀ image ∈ images, image.isLoaded = false)
    (hcovers : Covers images events) :
    let asked := (wantedKeys images).length
    let total := images.countP (·.isSelected)
    let loading := Dialogue.publish (.dated 0 asked) (gatherDates asked events 0 images)
    ∃ (before after : List Event) (images' : List Image) (counts : List Nat),
      loading.run (fun _ => false) 0 =
        ((.complete images', after), counts.map (.dated · total)) ∧
      (events = before ++ after ∧ Covers images before ∧
        ∀ k < before.length, ¬ Covers images (before.take k)) ∧
      List.Forall₂ (LastDated before) images images' ∧
      (counts.head? = some 0 ∧ counts.IsChain (· ≤ ·) ∧ (∀ done ∈ counts, done ≤ total) ∧
        counts.getLast? = some total) := by
  intro asked total loading
  have hasked : asked = total := length_wantedKeys hkeys
  obtain ⟨before, after, counts, hsuffices, htells, hrun⟩ :=
    run_gatherDates hfresh [] hcovers
  rw [arrivedCount_nil, arrivals_nil, map_dated_nil, List.nil_append] at hrun
  rw [arrivedCount_nil] at htells
  refine ⟨before, after, images.map (dated (arrivals before)), 0 :: counts, ?_,
    ⟨hsuffices.split, hsuffices.covers, hsuffices.least⟩, ?_,
    ⟨rfl, htells.ordered, hasked ▸ htells.bounded, hasked ▸ htells.last⟩⟩
  · rw [Dialogue.run, hrun, ← hasked]
    rfl
  · rw [List.forall₂_map_right_iff, List.forall₂_same]
    exact fun image himage => lastDated_dated (hsuffices.covers image himage)

/-- A card of three images, of which one is not selected. -/
def sampleCard : List Image :=
  [Image.ofName "a" "a", { Image.ofName "b" "b" with isSelected := false }, Image.ofName "c" "c"]

def sampleDate (second : String) : CaptureDate :=
  ⟨"2021", "01", "01", "00", "00", second⟩

/-- Two dates for an image, one each for an image that is not selected, an unknown one and the last
selected one, among events of other workers. -/
def sampleArrivals : List Event :=
  [.other, .captured "a" (sampleDate "01"), .captured "b" (sampleDate "02"),
    .captured "x" (sampleDate "03"), .scanComplete false, .captured "a" (sampleDate "04"),
    .captured "c" (sampleDate "05")]

/-- The card with the last dates of these. -/
def sampleGathered : List Image :=
  [{ Image.ofName "a" "a" with captured := some (sampleDate "04") },
    { Image.ofName "b" "b" with isSelected := false },
    { Image.ofName "c" "c" with captured := some (sampleDate "05") }]

theorem gatherDates_of_covers_sample :
    let late : Event := .captured "a" (sampleDate "06")
    (sampleCard.map Image.key).Nodup ∧ (∀ image ∈ sampleCard, image.isLoaded = false) ∧
      Covers sampleCard (sampleArrivals ++ [late]) ∧
      (Dialogue.publish (.dated 0 2) (gatherDates 2 (sampleArrivals ++ [late]) 0 sampleCard)).run
          (fun _ => false) 0 =
        ((.complete sampleGathered, [late]), [.dated 0 2, .dated 1 2, .dated 1 2, .dated 2 2]) ∧
      List.Forall₂ (LastDated sampleArrivals) sampleCard sampleGathered := by
  intro late
  have hkeys : (sampleCard.map Image.key).Nodup := by decide
  have hfresh : ∀ image ∈ sampleCard, image.isLoaded = false := by decide
  have hcovers : Covers sampleCard (sampleArrivals ++ [late]) := by decide
  have hasked : (wantedKeys sampleCard).length = 2 := by decide
  obtain ⟨before, after, images', counts, hrun, ⟨hsplit, -⟩, himages, -⟩ :=
    gatherDates_of_covers sampleCard (sampleArrivals ++ [late]) hkeys hfresh hcovers
  have hgathered : (Dialogue.publish (.dated 0 2)
      (gatherDates 2 (sampleArrivals ++ [late]) 0 sampleCard)).run (fun _ => false) 0 =
      ((.complete sampleGathered, [late]), [.dated 0 2, .dated 1 2, .dated 1 2, .dated 2 2]) := rfl
  rw [hasked, hgathered] at hrun
  simp only [Prod.mk.injEq, Outcome.complete.injEq] at hrun
  obtain ⟨⟨rfl, rfl⟩, -⟩ := hrun
  exact ⟨hkeys, hfresh, hcovers, hgathered, List.append_cancel_right hsplit ▸ himages⟩

end PhotoIntake.Session
