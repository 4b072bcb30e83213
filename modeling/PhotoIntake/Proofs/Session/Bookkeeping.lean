import PhotoIntake.Proofs.Session.Downloading

/-!
# The books of a session

A session counts what it found and what it skipped, and it records what was reported.

* `record_of_worksIn`: with a store that can be written, every image of a report is recorded.
* `run_download_of_stopped`: a session that is cancelled at once does nothing.
* `download_accounts`: the counts and the records of a session agree with what happened.
-/

namespace PhotoIntake.Session

variable {σ : Type}

/-! ## Recording -/

theorem record_nil (s : Session σ) : s.record [] = (0, s) := by
  unfold record
  cases s.store <;> rfl

/-- A store that can be written takes the records of files with times up, and they are counted. -/
theorem record_of_worksIn {s : Session σ} {store : HistoryStore} (hstore : s.store = some store)
    (hworks : store.WorksIn s.files) {records : List History.Record}
    (htimes : ∀ r ∈ records, r.identity.modified ≠ .nan) :
    ∃ after : Session σ, s.record records = (records.length, after) ∧
      ∃ history, after.store = some { store with history } ∧
        ∀ id, history.lookup id = ((History.lastOf? records id).map History.Record.download).or
          (store.history.lookup id) := by
  by_cases hempty : records = []
  · subst hempty
    exact ⟨s, s.record_nil, store.history, hstore, fun id => rfl⟩
  · obtain ⟨history, files, hrecord, hlookup⟩ := store.record_of_worksIn hworks htimes
    refine ⟨{ s with store := some { store with history }, files }, ?_, history, rfl, hlookup⟩
    simp [record, hstore, hempty, hrecord]

/-- Every reported image has a record, of a file with a time. -/
theorem recordsOf_reported (s : Session σ) (clock : Clock) (o : Options)
    (hnames : s.files.NamesValid) :
    let records := recordsOf (identities s.files (s.offered o)) (s.transferred clock o).1
    records.length = (s.transferred clock o).1.images.length ∧
      ∀ r ∈ records, r.identity.modified ≠ .nan := by
  intro records
  constructor
  · refine List.filterMap_length_eq_length.2 fun d hd => ?_
    obtain ⟨id, -, hid⟩ := exists_identity_of_reported hnames hd
    rw [hid]
    rfl
  · intro r hr
    obtain ⟨d, hd, hrecord⟩ := List.mem_filterMap.1 hr
    obtain ⟨id, hpath, hid⟩ := exists_identity_of_reported hnames hd
    rw [hid] at hrecord
    obtain rfl := Option.some.inj hrecord
    exact FileIdentity.modified_ne_nan hpath

/-- With a store that can be written, as many images are recorded as are reported. -/
theorem recording_of_worksIn {s : Session σ} {clock : Clock} {o : Options} {store : HistoryStore}
    (hnames : s.files.NamesValid) (hstore : s.store = some store)
    (hworks : store.WorksIn (s.transferred clock o).2.2) :
    ∃ after : Session σ,
      s.recording clock o = ((s.transferred clock o).1.images.length, after) ∧
      ∃ history, after.store = some { store with history } ∧
        ∀ id, history.lookup id =
          ((History.lastOf? (recordsOf (identities s.files (s.offered o)) (s.transferred clock o).1)
            id).map History.Record.download).or (store.history.lookup id) := by
  obtain ⟨hlength, htimes⟩ := s.recordsOf_reported clock o hnames
  obtain ⟨after, hrecord, hafter⟩ := record_of_worksIn
    (s := { s.task o with
      mover := (s.transferred clock o).2.1, files := (s.transferred clock o).2.2 })
    ((s.store_task o).trans hstore) hworks htimes
  rw [hlength] at hrecord
  exact ⟨after, hrecord, hafter⟩

/-! ## Being cancelled at once -/

/-- Gathering begins with a question, and ends when it is answered with yes. -/
theorem gatherImages_of_stopped (o : Options) (events : List Event) (images : List Image) :
    ∃ next rest, gatherImages o events images = .ask () next ∧
      next true = .done (.cancelled, rest) := by
  cases events with
  | nil => exact ⟨_, [], rfl, rfl⟩
  | cons event rest => exact ⟨_, rest, rfl, rfl⟩

/-- A session that is cancelled at once does nothing. -/
theorem run_download_of_stopped (s : Session σ) (clock : Clock) (o : Options) {answer : Nat → Bool}
    (h : answer 0 = true) :
    (s.download clock o).run answer 0 = ((.ok .cancelled, s), []) := by
  obtain ⟨next, rest, hask, hstopped⟩ := gatherImages_of_stopped o (scanEvents (Scan.whole s.files
    (s.store.map (·.history)) o.source o.withSubfolders s.batchSize)) []
  unfold download gather
  simp only [hask]
  show Dialogue.run answer 1 (Dialogue.bind (Dialogue.bind (next (answer 0)) _) _) = _
  rw [h, hstopped]
  rfl

/-! ## The books -/

/-- A session that is not cancelled counts the image files that it found and those of them that it
skipped, since they were downloaded before, and offers all others to its mover, in the order of the
scan.  With a store that can be written it records as many images as are reported.  What the source
of a reported image was recognised by before the download is then known as downloaded to where the
image went, when it went there; of images that are recognised by the same the last one counts.  Of
everything else as much is known as before.  A session that is cancelled at once has no report and
changes nothing. -/
theorem download_accounts (s : Session σ) (clock : Clock) (o : Options)
    (hnames : s.files.NamesValid) (hdistinct : ((s.visits o).map Visit.path).Nodup) :
    (let after := ((s.download clock o).run (fun _ => false) 0).1
      let report := (s.transferred clock o).1
      let files := (s.transferred clock o).2.2
      ∃ summary : Summary, after.1 = .ok summary ∧
        summary.scanned = (s.visits o).length ∧
        summary.skipped =
          (if o.skipsDownloaded then (s.visits o).countP fun v => (s.earlier v).isSome else 0) ∧
        (s.offered o).map undated =
          ((s.visits o).filter fun v => !(o.skipsDownloaded && (s.earlier v).isSome)).map
            (s.imageAt o) ∧
        summary.report = some report ∧
        ∀ store, s.store = some store → store.WorksIn files →
          summary.recorded = report.images.length ∧
          (∀ d ∈ report.images, ∃ id, FileIdentity.ofPath s.files ⟨d.key⟩ = .ok id ∧ id.Same id) ∧
          ∃ history, after.2.store = some { store with history } ∧
            (∀ before d later id, report.images = before ++ d :: later →
              HadIdentity s.files d id → (∀ d' ∈ later, ¬ HadIdentity s.files d' id) →
              history.lookup id = some ⟨d.destination.text, some d.time⟩) ∧
            ∀ id, (∀ d ∈ report.images, ¬ HadIdentity s.files d id) →
              history.lookup id = store.history.lookup id) ∧
      ∀ answer : Nat → Bool, answer 0 = true →
        let stopped := ((s.download clock o).run answer 0).1
        (∃ summary : Summary, stopped.1 = .ok summary ∧ summary.report = none) ∧ stopped.2 = s := by
  constructor
  · intro after report files
    have hresult : after = (s.download clock o).result := rfl
    rw [hresult, result_download]
    have hskipped : (s.visits o).countP (s.skips o) =
        if o.skipsDownloaded then (s.visits o).countP fun v => (s.earlier v).isSome else 0 := by
      unfold skips
      cases o.skipsDownloaded <;> simp
    refine ⟨_, rfl, rfl, hskipped, s.map_undated_offered o hdistinct, rfl, ?_⟩
    intro store hstore hworks
    obtain ⟨recorded, hrecording, history, hhistory, hlookup⟩ :=
      recording_of_worksIn hnames hstore hworks
    rw [hrecording]
    refine ⟨rfl, fun d hd => ?_, history, hhistory, ?_, ?_⟩
    · obtain ⟨id, hpath, -⟩ := exists_identity_of_reported hnames hd
      exact ⟨id, hpath, FileIdentity.same_self (FileIdentity.modified_ne_nan hpath)⟩
    · intro before d later id hreport hid hlater
      have hmem (d' : Downloaded) (hd' : d' ∈ before ++ d :: later) : d' ∈ report.images := by
        rwa [hreport]
      obtain ⟨id', hrecorded, hsame⟩ := (hadIdentity_iff hnames (hmem d (by simp))).1 hid
      have hlast := lastOf?_recordsOf hreport hrecorded hsame fun d' hd' hid' =>
        hlater d' hd' ((hadIdentity_iff hnames (hmem d' (by simp [hd']))).2 hid')
      rw [hlookup, hlast]
      rfl
    · intro id hnone
      have hother : ∀ d ∈ report.images, ¬ ∃ id', (identities s.files (s.offered o)).lookup d.key =
          some id' ∧ id'.Same id :=
        fun d hd hid => hnone d hd ((hadIdentity_iff hnames hd).2 hid)
      rw [hlookup, lastOf?_recordsOf_eq_none hother]
      rfl
  · intro answer hanswer stopped
    have hstopped : stopped = (.ok .cancelled, s) :=
      congrArg Prod.fst (s.run_download_of_stopped clock o hanswer)
    rw [hstopped]
    exact ⟨⟨.cancelled, rfl, rfl⟩, rfl⟩

/-- A card with two images is moved.  Both are recorded, by what they were recognised by before they
were moved. -/
theorem download_accounts_sample :
    let s := sampleSession false .inMemory
    let after := ((s.download Mover.sampleClock (sampleOptions .move)).run (fun _ => false) 0).1
    ∃ summary : Summary, after.1 = .ok summary ∧ summary.scanned = 2 ∧ summary.recorded = 2 ∧
      ∃ history id, after.2.store = some ⟨none, history⟩ ∧
        FileIdentity.ofPath (sampleFiles false) ⟨"card/b.jpg"⟩ = .ok id ∧
        (history.lookup id).map (·.target) = some "out/x-1.jpg" := by
  intro s after
  have himages : (s.transferred Mover.sampleClock (sampleOptions .move)).1.images.map
      (fun d => (d.key, d.destination.text)) =
        [("card/a.jpg", "out/x.jpg"), ("card/b.jpg", "out/x-1.jpg")] := by
    rw [transferred, task_sample]
    decide +kernel
  obtain ⟨⟨summary, hok, hscanned, -, -, -, hstore⟩, -⟩ := download_accounts s Mover.sampleClock
    (sampleOptions .move) namesValid_sample (by rw [visits_sample]; decide +kernel)
  obtain ⟨hrecorded, hidentity, history, hhistory, hlookup, -⟩ :=
    hstore .inMemory rfl (HistoryStore.worksIn_inMemory _ _)
  obtain ⟨first, rest, hreport, -, hrest⟩ := List.map_eq_cons_iff.1 himages
  obtain ⟨last, rest, rfl, hlast, hrest⟩ := List.map_eq_cons_iff.1 hrest
  obtain rfl := List.map_eq_nil_iff.1 hrest
  obtain ⟨hkey, htarget⟩ := Prod.mk.inj hlast
  obtain ⟨id, hpath, hself⟩ := hidentity last (by rw [hreport]; simp)
  refine ⟨summary, hok, hscanned.trans (by rw [visits_sample]; rfl), ?_, history, id, hhistory,
    hkey ▸ hpath, ?_⟩
  · rw [hrecorded, hreport]
    rfl
  · rw [hlookup [first] last [] id hreport ⟨id, hpath, hself⟩ (by simp), Option.map_some, htarget]

end PhotoIntake.Session
