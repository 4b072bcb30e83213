import PhotoIntake.Proofs.Sequence.Saving
import PhotoIntake.Proofs.Session.Bookkeeping

/-!
# Sessions that find nothing new

A session that downloaded everything that it offered leaves a store in which every image of its
source is known: those that it skipped were known before, and all others are recorded.  They are
recognised as long as the source is kept, which `sourceKept_download` shows of sessions that copy, so
a later session with that store skips them all.

* `known_of_reported`: everything is known after a download in which nothing failed.
* `result_download_of_skips`: a session that skips everything does nothing.
* `skips_of_known`: what is known is skipped as long as the source is kept.
* `second_download_skips_all`: so does a second session.
-/

namespace PhotoIntake.Session

variable {σ τ : Type}

/-! ## What is known after a download -/

/-- What a session knows of a file, the history of its store knows. -/
theorem exists_identity_of_earlier {s : Session σ} {store : HistoryStore}
    (hstore : s.store = some store) {v : Visit} (hearlier : (s.earlier v).isSome = true) :
    ∃ id, FileIdentity.ofPath s.files v.path = .ok id ∧
      (store.history.lookup id).isSome = true := by
  unfold earlier Scan.lookupIn at hearlier
  rw [hstore, Option.map_some] at hearlier
  cases hpath : FileIdentity.ofPath s.files v.path with
  | error e => simp [hpath] at hearlier
  | ok id => exact ⟨id, rfl, by simpa [hpath] using hearlier⟩

/-- Every reported image has a last record. -/
theorem isSome_lastOf?_of_reported {s : Session σ} {clock : Clock} {o : Options}
    (hnames : s.files.NamesValid) {d : Downloaded}
    (hd : d ∈ (s.transferred clock o).1.images) :
    ∃ id, FileIdentity.ofPath s.files ⟨d.key⟩ = .ok id ∧
      (History.lastOf? (recordsOf (identities s.files (s.offered o)) (s.transferred clock o).1)
        id).isSome = true := by
  obtain ⟨id, hpath, hid⟩ := exists_identity_of_reported hnames hd
  refine ⟨id, hpath, History.isSome_lastOf?_iff.2 ⟨⟨id, d.destination.text, d.time⟩, ?_, ?_⟩⟩
  · exact List.mem_filterMap.2 ⟨d, hd, by rw [hid]; rfl⟩
  · exact FileIdentity.same_self (FileIdentity.modified_ne_nan hpath)

/-- A session with a store that can be written, and in which no transfer fails, leaves all images
of its source known. -/
theorem known_of_reported {s : Session σ} {clock : Clock} {o : Options} {store : HistoryStore}
    (hnames : s.files.NamesValid) (hstore : s.store = some store)
    (hworks : store.WorksIn (s.transferred clock o).2.2)
    (hreported : ∀ image ∈ s.offered o, ∃ d ∈ (s.transferred clock o).1.images,
      d.key = image.key) :
    ∃ history, ((s.download clock o).run (fun _ => false) 0).1.2.store =
        some { store with history } ∧
      ∀ v ∈ s.visits o, ∃ id, FileIdentity.ofPath s.files v.path = .ok id ∧
        (history.lookup id).isSome = true := by
  obtain ⟨after, hrecording, history, hhistory, hlookup⟩ :=
    recording_of_worksIn hnames hstore hworks
  refine ⟨history, ?_, fun v hv => ?_⟩
  · show (s.download clock o).result.2.store = _
    rw [result_download, hrecording]
    exact hhistory
  by_cases hearlier : (s.earlier v).isSome = true
  · obtain ⟨id, hpath, hknown⟩ := exists_identity_of_earlier hstore hearlier
    refine ⟨id, hpath, ?_⟩
    rw [hlookup, Option.isSome_or, hknown, Bool.or_true]
  · have hoffered : v.path.text ∈ (s.offered o).map Image.key :=
      mem_keys_offered.2 ⟨v, hv, by simp [skips, hearlier], rfl⟩
    obtain ⟨image, himage, hkey⟩ := List.mem_map.1 hoffered
    obtain ⟨d, hd, hdkey⟩ := hreported image himage
    have hsource : (⟨d.key⟩ : Path) = v.path := congrArg Path.mk (hdkey.trans hkey)
    obtain ⟨id, hpath, hrecorded⟩ := isSome_lastOf?_of_reported hnames hd
    refine ⟨id, hsource ▸ hpath, ?_⟩
    rw [hlookup, Option.isSome_or, Option.isSome_map, hrecorded, Bool.true_or]

/-! ## Skipping everything -/

/-- A session that skips everything reports nothing and records nothing, and writes its counters if
they have changed before. -/
theorem result_download_of_skips {s : Session σ} {o : Options}
    (hskips : ∀ v ∈ s.visits o, s.skips o v = true) (clock : Clock) :
    ∃ saved, (s.download clock o).result =
      (.ok ⟨(s.visits o).length, (s.visits o).length, some (.completed []), 0, saved⟩,
        { s.task o with
          mover := { (s.task o).mover with sequences := (s.mover.sequences.save s.files).2.1 }
          files := (s.mover.sequences.save s.files).2.2 }) := by
  have hoffered : s.offered o = [] := by
    refine List.eq_nil_iff_forall_not_mem.2 fun image himage => ?_
    obtain ⟨v, hv, hskipped, -⟩ := mem_keys_offered.1 (List.mem_map_of_mem himage)
    rw [hskips v hv] at hskipped
    cases hskipped
  have htransferred : s.transferred clock o = (.completed [], (s.task o).mover, s.files) := by
    rw [transferred_eq, lastJob, hoffered]
    rfl
  have hrecording : s.recording clock o = (0, { s.task o with files := s.files }) := by
    rw [recording, htransferred]
    exact record_nil _
  rw [result_download, hrecording, htransferred, List.countP_eq_length.2 hskips]
  simp only [Mover.saveSequences, sequences_task]
  exact ⟨_, rfl⟩

/-! ## The second session -/

/-- What is known of all images of a source is found by a later session as long as the source is
kept. -/
theorem skips_of_known {s₁ : Session σ} {s₂ : Session τ} {o₁ o₂ : Options} {store : HistoryStore}
    (hnames : s₁.files.NamesValid) (hkept : Walk.SourceKept s₁.files s₂.files o₁.source)
    (hsource : o₂.source = o₁.source) (hsubfolders : o₂.withSubfolders = o₁.withSubfolders)
    (hstore : s₂.store = some store) (hskips : o₂.skipsDownloaded = true)
    (hknown : ∀ v ∈ s₁.visits o₁, ∃ id, FileIdentity.ofPath s₁.files v.path = .ok id ∧
      (store.history.lookup id).isSome = true) :
    ∀ v ∈ s₂.visits o₂, s₂.skips o₂ v = true := by
  intro v hv
  obtain ⟨himage, content, modified, hfile⟩ := Walk.mem_images_iff.1 ⟨v, hv, rfl⟩
  rw [hsource, hsubfolders] at hfile
  have hfile₁ := hkept.symm.sourceFile hfile
  obtain ⟨v₁, hv₁, hpath⟩ : ∃ v₁ ∈ s₁.visits o₁, v₁.path = v.path :=
    Walk.mem_images_iff.2 ⟨himage, content, modified, hfile₁⟩
  obtain ⟨id, hid, hlookup⟩ := hknown v₁ hv₁
  rw [hpath] at hid
  have hfollow := FileTree.followable_of_ofPath hid
  -- Kept files are recognised by what is in them, so by the same in both sessions.
  have hid₁ := (Walk.SourceKept.refl _ _).ofPath_eq hnames hfile₁ hfollow
  have hid₂ : FileIdentity.ofPath s₂.files v.path = .ok id :=
    (hkept.ofPath_eq hnames hfile₁ hfollow).trans (hid₁.symm.trans hid)
  have hearlier : s₂.earlier v = store.history.lookup id := by
    unfold earlier Scan.lookupIn
    rw [hstore, hid₂]
    rfl
  rw [skips, hskips, hearlier, hlookup, Bool.and_self]

/-- A first session, not cancelled, has a store that can be written, and all images that it offers
are reported.  A second session has the store that the first one leaves, skips what was downloaded
before, and works on files in which the source of the first one is kept.  Then the second session
skips every image that it scans, reports none and records nothing.  No counter and nothing in the
store changes.  The one file that it may write is that of the counters, and only if they had changed
before the session began; those of a fresh mover have not. -/
theorem second_download_skips_all (s₁ : Session σ) (s₂ : Session τ) (clock₁ clock₂ : Clock)
    (o₁ o₂ : Options) (store : HistoryStore) (hnames : s₁.files.NamesValid)
    (hstore : s₁.store = some store) (hworks : store.WorksIn (s₁.transferred clock₁ o₁).2.2)
    (hreported : ∀ image ∈ s₁.offered o₁, ∃ d ∈ (s₁.transferred clock₁ o₁).1.images,
      d.key = image.key)
    (hsame : s₂.store = ((s₁.download clock₁ o₁).run (fun _ => false) 0).1.2.store)
    (hskips : o₂.skipsDownloaded = true) (hsource : o₂.source = o₁.source)
    (hsubfolders : o₂.withSubfolders = o₁.withSubfolders)
    (hkept : Walk.SourceKept s₁.files s₂.files o₁.source) :
    let after := ((s₂.download clock₂ o₂).run (fun _ => false) 0).1
    ∃ summary : Summary, after.1 = .ok summary ∧
      summary.scanned = (s₂.visits o₂).length ∧ summary.skipped = summary.scanned ∧
      summary.report = some (.completed []) ∧ summary.recorded = 0 ∧
      after.2.store = s₂.store ∧
      after.2.mover.sequences.durable = s₂.mover.sequences.durable ∧
      after.2.mover.sequences.sessionNumber = s₂.mover.sequences.sessionNumber ∧
      after.2.files = (s₂.mover.sequences.save s₂.files).2.2 ∧
      (s₂.mover.sequences.isDirty = false → after.2.files = s₂.files) := by
  obtain ⟨history, hhistory, hknown⟩ := known_of_reported hnames hstore hworks hreported
  have hall := skips_of_known hnames hkept hsource hsubfolders (hsame.trans hhistory) hskips hknown
  obtain ⟨saved, hresult⟩ := result_download_of_skips hall clock₂
  intro after
  have hafter : after = _ := hresult
  obtain ⟨hdurable, hsession⟩ := s₂.mover.sequences.counters_save s₂.files
  rw [hafter]
  refine ⟨_, rfl, rfl, rfl, rfl, rfl, s₂.store_task o₂, hdurable, hsession, rfl, fun hclean => ?_⟩
  exact congrArg (·.2.2) (Sequences.save_of_clean hclean s₂.files)

/-- Two images are copied from a card, and a second session finds both of them and skips them. -/
theorem second_download_skips_all_sample :
    let s := sampleSession false .inMemory
    let o := sampleOptions .copy
    ∃ store, ((s.download Mover.sampleClock o).run (fun _ => false) 0).1.2.store = some store ∧
      let after := (((sampleSession true store).download Mover.sampleClock o).run
        (fun _ => false) 0).1
      ∃ summary : Summary, after.1 = .ok summary ∧ summary.scanned = 2 ∧ summary.skipped = 2 ∧
        summary.report = some (.completed []) ∧ after.2.files = sampleFiles true := by
  intro s o
  have hreported : ∀ image ∈ s.offered o, ∃ d ∈ (s.transferred Mover.sampleClock o).1.images,
      d.key = image.key := by
    rw [offered, transferred, task_sample]
    decide +kernel
  have hworks := HistoryStore.worksIn_inMemory .empty (s.transferred Mover.sampleClock o).2.2
  obtain ⟨history, hstore, -⟩ := known_of_reported (s := s) namesValid_sample rfl hworks hreported
  obtain ⟨summary, hok, hscanned, hskipped, hreport, -, -, -, -, -, hfiles⟩ :=
    second_download_skips_all s (sampleSession true ⟨none, history⟩) Mover.sampleClock
      Mover.sampleClock o o ⟨none, .empty⟩ namesValid_sample rfl hworks hreported hstore.symm rfl
      rfl rfl sourceKept_sample
  have htwo : summary.scanned = 2 := hscanned.trans (by rw [visits_sample]; rfl)
  exact ⟨⟨none, history⟩, hstore, summary, hok, htwo, hskipped.trans htwo, hreport, hfiles rfl⟩

end PhotoIntake.Session
