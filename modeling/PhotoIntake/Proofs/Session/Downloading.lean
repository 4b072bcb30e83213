import PhotoIntake.Proofs.Download.Reporting
import PhotoIntake.Proofs.Download.WorkingSet
import PhotoIntake.Proofs.History.Records
import PhotoIntake.Proofs.Session.Gathering
import PhotoIntake.Proofs.Source.Walking

/-!
# How a session downloads

A session that nobody cancels offers images to its mover, lets it transfer them, records what was
transferred and writes the counters, in this order.

* `result_download` puts these parts together.
* `map_undated_offered` and `mem_keys_offered`: the images that are offered are those that the
  session does not skip.
* `exists_identity_of_reported`: every reported image is recorded by what its source was recognised
  by before the download.
-/

namespace PhotoIntake.Session

open FileTree (Followable)

variable {σ : Type}

/-! ## The parts of a download -/

-- Comparing two jobs of the mover would otherwise unfold the whole run that gathers their images.
/-- The session when everything is gathered and its mover knows what to do. -/
@[irreducible] def task (s : Session σ) (o : Options) : Session σ :=
  match (s.gather o).result with
  | (.complete images, s) => s.withTask o images
  | (_, s) => s

/-- The images that the session offers to its mover. -/
def offered (s : Session σ) (o : Options) : List Image :=
  (s.task o).mover.candidates

/-- What the mover does about them: its report, and the mover and the files after that. -/
def transferred (s : Session σ) (clock : Clock) (o : Options) : Report × Mover × FileTree :=
  ((s.task o).mover.download s.files clock).result

/-- How many images are recorded then, and the session after that. -/
def recording (s : Session σ) (clock : Clock) (o : Options) : Nat × Session σ :=
  let (report, mover, files) := s.transferred clock o
  { s.task o with mover, files }.record (recordsOf (identities s.files (s.offered o)) report)

/-- The session does not offer the image of the file, since it was downloaded before. -/
def skips (s : Session σ) (o : Options) (v : Visit) : Bool :=
  o.skipsDownloaded && (s.earlier v).isSome

/-- The plan of the download. -/
def Options.plan (o : Options) : Mover.Plan :=
  ⟨o.destination, o.imageTemplate, o.destinationTemplate⟩

/-- What is gathered is what the mover is told to download. -/
theorem exists_task (s : Session σ) (o : Options) :
    ∃ images readerState, (s.gather o).result = (.complete images, { s with readerState }) ∧
      s.task o = ({ s with readerState } : Session σ).withTask o images ∧
      images.map undated = (s.visits o).map (s.imageAt o) ∧
      ∀ image ∈ images, image.isLoaded = image.isSelected := by
  obtain ⟨images, readerState, hgather, himages, hloaded⟩ := s.result_gather o
  exact ⟨images, readerState, hgather, by rw [task, hgather], himages, hloaded⟩

@[simp] theorem store_task (s : Session σ) (o : Options) : (s.task o).store = s.store := by
  obtain ⟨images, readerState, -, htask, -⟩ := s.exists_task o
  rw [htask]
  rfl

@[simp] theorem sequences_task (s : Session σ) (o : Options) :
    (s.task o).mover.sequences = s.mover.sequences := by
  obtain ⟨images, readerState, -, htask, -⟩ := s.exists_task o
  rw [htask]
  rfl

@[simp] theorem plan?_task (s : Session σ) (o : Options) :
    (s.task o).mover.plan? = some o.plan := by
  obtain ⟨images, readerState, -, htask, -⟩ := s.exists_task o
  rw [htask]
  rfl

/-- Of the gathered images, those with a property that does not depend on dates belong to the files
whose images have it. -/
theorem map_undated_filter {images : List Image} {visits : List Visit} {f : Visit → Image}
    (himages : images.map undated = visits.map f) (p : Image → Bool)
    (hp : ∀ image, p (undated image) = p image) :
    (images.filter p).map undated = (visits.filter (p ∘ f)).map f := by
  have hp' : p ∘ undated = p := funext hp
  calc (images.filter p).map undated
      = (images.filter (p ∘ undated)).map undated := by rw [hp']
    _ = (images.map undated).filter p := List.filter_map.symm
    _ = (visits.map f).filter p := by rw [himages]
    _ = (visits.filter (p ∘ f)).map f := List.filter_map

/-- A download that is not cancelled ends with a summary of its parts. -/
theorem result_download (s : Session σ) (clock : Clock) (o : Options) :
    (s.download clock o).result =
      let (recorded, after) := s.recording clock o
      let (saved, mover, files) := after.mover.saveSequences after.files
      (.ok { scanned := (s.visits o).length
             skipped := (s.visits o).countP (s.skips o)
             report := some (s.transferred clock o).1
             recorded := recorded
             sequencesSaved := match saved with
               | .ok () => true
               | .error _ => false }, { after with mover, files }) := by
  obtain ⟨images, readerState, hgather, htask, himages, -⟩ := s.exists_task o
  have hscanned : images.length = (s.visits o).length := by
    simpa using congrArg List.length himages
  have hskips : (fun image : Image => !image.isSelected) ∘ s.imageAt o = s.skips o := by
    funext v
    simp [isSelected_imageAt, skips]
  have hskipped : (images.filter fun image => !image.isSelected).length =
      (s.visits o).countP (s.skips o) := by
    have hfilter := congrArg List.length
      (map_undated_filter himages (fun image => !image.isSelected) fun _ => rfl)
    rw [List.countP_eq_length_filter]
    rwa [List.length_map, List.length_map, hskips] at hfilter
  have hfiles : (s.task o).files = s.files := by
    rw [htask]
    rfl
  simp only [download, Dialogue.result_bind, Dialogue.result_translate, hgather, ← htask, hscanned,
    hskipped, recording, transferred, offered, hfiles]
  rfl

/-! ## The images that are offered -/

/-- The images that are offered, if no two files have one path. -/
theorem map_undated_offered (s : Session σ) (o : Options)
    (hdistinct : ((s.visits o).map Visit.path).Nodup) :
    (s.offered o).map undated =
      ((s.visits o).filter fun v => !s.skips o v).map (s.imageAt o) := by
  obtain ⟨images, readerState, -, htask, himages, hloaded⟩ := s.exists_task o
  have hkeys : images.map Image.key = (s.visits o).map fun v => v.path.text := by
    calc images.map Image.key = (images.map undated).map Image.key := by rw [List.map_map]; rfl
      _ = (s.visits o).map fun v => v.path.text := by
        rw [himages, List.map_map]
        exact List.map_congr_left fun v _ => s.key_imageAt o v
  have hnodup : (images.map Image.key).Nodup := by
    rw [hkeys]
    have hpaths := hdistinct.map (f := Path.text) fun p q h => by cases p; cases q; simpa using h
    rwa [List.map_map] at hpaths
  have hoffered : s.offered o = images.filter (·.isSelected) := by
    rw [offered, htask]
    show (WorkingSet.ofImages images).images.filter Image.isCandidate = _
    rw [WorkingSet.ofImages_of_nodup hnodup]
    refine List.filter_congr fun image himage => ?_
    rw [Image.isCandidate, hloaded image himage, Bool.and_self]
  have hselected : (fun image : Image => image.isSelected) ∘ s.imageAt o = fun v => !s.skips o v :=
    funext (s.isSelected_imageAt o)
  rw [hoffered, map_undated_filter himages (·.isSelected) fun _ => rfl, hselected]

/-- The keys that are offered are the paths of the files that the session does not skip. -/
theorem mem_keys_offered {s : Session σ} {o : Options} {key : ImageKey} :
    key ∈ (s.offered o).map Image.key ↔
      ∃ v ∈ s.visits o, s.skips o v = false ∧ v.path.text = key := by
  obtain ⟨images, readerState, -, htask, himages, hloaded⟩ := s.exists_task o
  have hoffered : s.offered o = (WorkingSet.ofImages images).images.filter Image.isCandidate := by
    rw [offered, htask]
    rfl
  -- Every gathered image belongs to a file that has its path and is skipped unless it is selected.
  have hfile : ∀ image ∈ images, ∃ v ∈ s.visits o, v.path.text = image.key ∧
      image.isCandidate = !s.skips o v := by
    intro image himage
    have hmem : undated image ∈ (s.visits o).map (s.imageAt o) := by
      rw [← himages]
      exact List.mem_map_of_mem himage
    obtain ⟨v, hv, hat⟩ := List.mem_map.1 hmem
    have heq : undated image = undated (s.imageAt o v) := by rw [undated_imageAt, hat]
    refine ⟨v, hv, by rw [key_of_undated_eq heq, key_imageAt], ?_⟩
    rw [Image.isCandidate, hloaded image himage, Bool.and_self, isSelected_of_undated_eq heq,
      isSelected_imageAt, skips]
  rw [hoffered, List.mem_map]
  constructor
  · rintro ⟨image, himage, rfl⟩
    obtain ⟨hmem, hcandidate⟩ := List.mem_filter.1 himage
    obtain ⟨v, hv, hkey, hskips⟩ := hfile image (WorkingSet.mem_of_mem_ofImages hmem)
    exact ⟨v, hv, by simpa [hcandidate] using hskips, hkey⟩
  · rintro ⟨v, hv, hskips, rfl⟩
    have hmem : s.imageAt o v ∈ images.map undated := by
      rw [himages]
      exact List.mem_map_of_mem hv
    obtain ⟨found, hfound, hat⟩ := List.mem_map.1 hmem
    have hkey : v.path.text ∈ (WorkingSet.ofImages images).keys := by
      rw [WorkingSet.mem_keys_ofImages, ← s.key_imageAt o v, ← hat]
      show found.key ∈ images.map Image.key
      exact List.mem_map_of_mem hfound
    -- Another file with this path may stand for the key, but it is known by the same history.
    obtain ⟨image, himage, hkey⟩ := List.mem_map.1 hkey
    obtain ⟨v', -, hpath, hcandidate⟩ := hfile image (WorkingSet.mem_of_mem_ofImages himage)
    have hsame : v'.path = v.path := congrArg Path.mk (hpath.trans hkey)
    have hskips' : s.skips o v' = false := by rwa [skips, earlier, hsame]
    exact ⟨image, List.mem_filter.2 ⟨himage, by rw [hcandidate, hskips']; rfl⟩, hkey⟩

/-! ## The images that are reported -/

/-- The download when everything that is offered was attempted. -/
def lastJob (s : Session σ) (clock : Clock) (o : Options) : Mover.Job :=
  (s.task o).mover.jobAfter o.plan s.files clock (s.offered o).length

theorem transferred_eq (s : Session σ) (clock : Clock) (o : Options) :
    s.transferred clock o = (.completed (s.lastJob clock o).written, (s.lastJob clock o).mover,
      (s.lastJob clock o).files) :=
  Mover.result_download (s.plan?_task o) s.files clock

theorem images_transferred (s : Session σ) (clock : Clock) (o : Options) :
    (s.transferred clock o).1.images = (s.lastJob clock o).written := by
  rw [transferred_eq]
  rfl

/-- Images from among those that were offered are reported, in their order, and the paths of all of
them could be followed. -/
theorem reported_transferred (s : Session σ) (clock : Clock) (o : Options) :
    ((s.transferred clock o).1.images.map Downloaded.key).Sublist
        ((s.offered o).map Image.key) ∧
      ∀ d ∈ (s.transferred clock o).1.images, Followable ⟨d.key⟩ := by
  have hreported := (s.task o).mover.reported_jobAfter o.plan s.files clock (Nat.le_refl _)
  rw [List.take_length] at hreported
  rw [images_transferred]
  exact hreported

/-! ## What is recorded -/

/-- An image is recorded by what its source is recognised by. -/
theorem lookup_identities (t : FileTree) (images : List Image) (key : ImageKey) :
    (identities t images).lookup key =
      if key ∈ images.map Image.key then (FileIdentity.ofPath t ⟨key⟩).toOption else none := by
  induction images with
  | nil => rfl
  | cons image rest ih =>
    have hcons : identities t (image :: rest) =
        ((FileIdentity.ofPath t image.source).toOption.map (image.key, ·)).toList ++
          identities t rest := by
      simp only [identities, List.filterMap_cons]
      cases FileIdentity.ofPath t image.source <;> rfl
    by_cases hkey : image.key = key
    · subst hkey
      have hsource : image.source = ⟨image.key⟩ := rfl
      rw [hcons, hsource]
      cases hpath : FileIdentity.ofPath t ⟨image.key⟩ with
      | error e =>
        rw [hpath] at ih
        simp [Except.toOption, ih]
      | ok id => simp [Except.toOption]
    · have hother : (key == image.key) = false := by simpa using Ne.symm hkey
      have hmem : key ∈ (image :: rest).map Image.key ↔ key ∈ rest.map Image.key := by
        simp [Ne.symm hkey]
      simp only [hcons, hmem]
      rw [← ih]
      cases FileIdentity.ofPath t image.source <;> simp [Except.toOption, List.lookup_cons, hother]

/-- Every reported image is recorded by what its source was recognised by before the download. -/
theorem exists_identity_of_reported {s : Session σ} {clock : Clock} {o : Options}
    (hnames : s.files.NamesValid) {d : Downloaded}
    (hd : d ∈ (s.transferred clock o).1.images) :
    ∃ id, FileIdentity.ofPath s.files ⟨d.key⟩ = .ok id ∧
      (identities s.files (s.offered o)).lookup d.key = some id := by
  obtain ⟨hkeys, hfollow⟩ := s.reported_transferred clock o
  have hoffered : d.key ∈ (s.offered o).map Image.key :=
    hkeys.subset (List.mem_map_of_mem hd)
  obtain ⟨v, hv, -, hpath⟩ := mem_keys_offered.1 hoffered
  obtain ⟨-, content, modified, hfile⟩ := Walk.mem_images_iff.1 ⟨v, hv, rfl⟩
  have hpath' : v.path = ⟨d.key⟩ := by rw [← hpath]
  have hid := (Walk.SourceKept.refl s.files o.source).ofPath_eq hnames hfile
    (hpath' ▸ hfollow d hd)
  rw [hpath'] at hid
  exact ⟨_, hid, by rw [lookup_identities, if_pos hoffered, hid]; rfl⟩

/-- The source of the reported image was recognised by what the file is recognised by. -/
def HadIdentity (t : FileTree) (d : Downloaded) (id : FileIdentity) : Prop :=
  ∃ id', FileIdentity.ofPath t ⟨d.key⟩ = .ok id' ∧ id'.Same id

/-- A reported image is recorded by what the file is recognised by if its source was. -/
theorem hadIdentity_iff {s : Session σ} {clock : Clock} {o : Options} (hnames : s.files.NamesValid)
    {d : Downloaded} (hd : d ∈ (s.transferred clock o).1.images) {id : FileIdentity} :
    HadIdentity s.files d id ↔
      ∃ id', (identities s.files (s.offered o)).lookup d.key = some id' ∧ id'.Same id := by
  obtain ⟨known, hpath, hknown⟩ := exists_identity_of_reported hnames hd
  simp [HadIdentity, hpath, hknown]

/-- The records of a report say of a file what the last image of that file says. -/
theorem lastOf?_recordsOf {ids : List (ImageKey × FileIdentity)} {report : Report}
    {before later : List Downloaded} {d : Downloaded} {id id' : FileIdentity}
    (hreport : report.images = before ++ d :: later) (hid : ids.lookup d.key = some id')
    (hsame : id'.Same id)
    (hlater : ∀ d' ∈ later, ¬ ∃ id', ids.lookup d'.key = some id' ∧ id'.Same id) :
    History.lastOf? (recordsOf ids report) id = some ⟨id', d.destination.text, d.time⟩ := by
  rw [recordsOf, hreport, List.filterMap_append, List.filterMap_cons, hid, Option.map_some]
  refine History.lastOf?_append hsame fun r hr hsame' => ?_
  obtain ⟨d', hd', hr⟩ := List.mem_filterMap.1 hr
  obtain ⟨id', hid', rfl⟩ := Option.map_eq_some_iff.1 hr
  exact hlater d' hd' ⟨id', hid', hsame'⟩

/-- The records of a report say nothing of a file that none of its images is of. -/
theorem lastOf?_recordsOf_eq_none {ids : List (ImageKey × FileIdentity)} {report : Report}
    {id : FileIdentity}
    (hnone : ∀ d ∈ report.images, ¬ ∃ id', ids.lookup d.key = some id' ∧ id'.Same id) :
    History.lastOf? (recordsOf ids report) id = none := by
  refine History.lastOf?_eq_none fun r hr hsame => ?_
  obtain ⟨d, hd, hr⟩ := List.mem_filterMap.1 hr
  obtain ⟨id', hid', rfl⟩ := Option.map_eq_some_iff.1 hr
  exact hnone d hd ⟨id', hid', hsame⟩

/-! ## A sample -/

/-- A card with two images, and a folder that is empty at first and has copies of them later. -/
def sampleFiles (later : Bool) : FileTree :=
  { entries := [(["card"], .folder), (["card", "a.jpg"], .file "A".toUTF8 0),
        (["card", "b.jpg"], .file "B".toUTF8 0), (["out"], .folder)] ++
      if later then
        [(["out", "x.jpg"], .file "A".toUTF8 0), (["out", "x-1.jpg"], .file "B".toUTF8 0)]
      else []
    working := []
    room := none
    clock := 1 }

/-- A session with a reader that finds no metadata. -/
def sampleSession (later : Bool) (store : HistoryStore) : Session Unit :=
  start (sampleFiles later) (some store) 1
    ⟨fun _ => (.ok (), ()), fun _ _ _ => (.ok .empty, ()), fun _ => ()⟩ ()
    (.ofSequences (.ofFile ⟨"s.json"⟩) .copy)

/-- The images on the card are moved or copied, and named by one text. -/
def sampleOptions (mode : TransferMode) : Options :=
  ⟨⟨"card"⟩, ⟨"out"⟩, true, mode, Mover.sampleTemplate "x", Mover.sampleTemplate "", "", true⟩

/-- The images on the card, with the date that images without metadata get. -/
def sampleImages : List Image :=
  [("a.jpg", "card/a.jpg"), ("b.jpg", "card/b.jpg")].map fun (name, path) =>
    { Image.ofName name path with captured := some Metadata.Tags.empty.captureDate }

theorem namesValid_sample : (sampleFiles false).NamesValid :=
  FileTree.namesValid_of_entries (by decide +kernel)

theorem ofSource_sample (later : Bool) : Walk.ofSource (sampleFiles later) ⟨"card"⟩ true =
    [some ⟨⟨"card"⟩, "card", false⟩, some ⟨⟨"card/a.jpg"⟩, "a.jpg", true⟩,
      some ⟨⟨"card/b.jpg"⟩, "b.jpg", true⟩] := by
  obtain ⟨depth, hwalk⟩ : ∃ depth, Walk.ofSource (sampleFiles later) ⟨"card"⟩ true =
      some ⟨⟨"card"⟩, "card", false⟩ ::
        Walk.inFolder (sampleFiles later) (depth + 1) ["card"] ⟨"card"⟩ := by
    cases later
    · exact ⟨3, rfl⟩
    · exact ⟨5, rfl⟩
  have hnames : (sampleFiles later).namesIn ["card"] = ["a.jpg", "b.jpg"] := by
    cases later <;> decide +kernel
  rw [hwalk, Walk.inFolder, hnames, List.mergeSort_of_pairwise (by decide +kernel)]
  cases later <;> rfl

/-- Copies are added beside the card, not on it. -/
theorem sourceKept_sample :
    Walk.SourceKept (sampleFiles false) (sampleFiles true) ⟨"card"⟩ where
  locate followLast := by cases followLast <;> rfl
  get? place hplace l hl := by
    have hcard : (sampleFiles false).locate true ⟨"card"⟩ = .ok ⟨["card"], some .folder⟩ := rfl
    obtain rfl := Except.ok.inj (hcard.symm.trans hplace)
    obtain ⟨rest, rfl⟩ := hl
    simp [FileTree.get?, sampleFiles, FileTree.lookup_cons_eq_if]

theorem visits_sample (later : Bool) (store : HistoryStore) (mode : TransferMode) :
    (sampleSession later store).visits (sampleOptions mode) =
      [⟨⟨"card/a.jpg"⟩, "a.jpg", true⟩, ⟨⟨"card/b.jpg"⟩, "b.jpg", true⟩] := by
  show Walk.images (Walk.ofSource (sampleFiles later) ⟨"card"⟩ true) = _
  rw [ofSource_sample]
  decide +kernel

theorem task_sample (mode : TransferMode) :
    let s := sampleSession false .inMemory
    s.task (sampleOptions mode) = s.withTask (sampleOptions mode) sampleImages := by
  intro s
  have hscan : Scan.whole (sampleFiles false) (some .empty) ⟨"card"⟩ true 1 =
      ⟨[[⟨"a.jpg", "card/a.jpg", none⟩], [⟨"b.jpg", "card/b.jpg", none⟩]], false⟩ := by
    rw [Scan.whole, ofSource_sample]
    decide +kernel
  have hgather : (s.gather (sampleOptions mode)).result = (.complete sampleImages, s) := by
    show (Dialogue.bind (gatherImages _ (scanEvents (Scan.whole (sampleFiles false) (some .empty)
      ⟨"card"⟩ true 1)) []) _).result = _
    rw [hscan]
    rfl
  rw [task, hgather]

end PhotoIntake.Session
