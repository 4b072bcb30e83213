import PhotoIntake.Proofs.FileTree.Stored
import PhotoIntake.Proofs.History.Answers
import PhotoIntake.Proofs.Json.Codes

/-!
# Stores that are closed and opened again

A history stands in for the table of a database, and its text for the file.  A store in a file
writes its history after every change, and reads it when it is opened.  Since the text of a history
is read back, and the path leads to the same file every time, opening a store again gives what was
written last.  So the store answers as a store in a database does.

* `ofText?_text`: a history is read back from its text.
* `KeptIn`: the file of a store holds its history, and whatever else is needed to write it again.
* `KeptIn.replace` and `KeptIn.openFile_eq`: so it is after a change, and opening reads it.
* `exists_keptIn`: so it is when a store has been opened.
* `answers_eq_log` and `answers_eq_database`: the store gives the right answers, which are those of
  a store in any database.
-/

namespace PhotoIntake

open FileTree (Leads OnlyFile SameBut FoldersAdded)

/-! ## The text of a history -/

namespace History

theorem Row.codes (row : Row) : Json.Codes Row.ofJson? row.toJson row := by
  refine ⟨rfl, ?_⟩
  have hcount : (Json.ofNat row.key.modified.toNat).count? = some row.key.modified.toNat :=
    (Json.codes_count row.key.modified.toNat_lt).read_eq
  rw [Row.toJson, Json.ofNat, Row.ofJson?, hcount]
  simp [Json.text?, Json.Number.toNat?, Json.Number.ofNat, Json.Number.isWhole]

/-- A history is read back from its text. -/
theorem ofText?_text (h : History) : ofText? h.text = some h := by
  have hcodes := Json.Codes.list fun row (_ : row ∈ h.rows) => row.codes
  have hread := Json.read?_write hcodes.isProper
  rw [Json.read?] at hread
  have hchars : h.text.toList = heading ++ (Json.array (h.rows.map Row.toJson)).write.toList := by
    rw [text, String.toList_append, String.toList_ofList]
  rw [ofText?, hchars]
  simp [hread, hcodes.read_eq]

/-- So there is a text. -/
theorem isEmpty_text (h : History) : h.text.toUTF8.isEmpty = false := by
  have hne : h.text ≠ "" := fun hempty => by
    have hread := ofText?_text h
    rw [hempty] at hread
    exact absurd hread (by simp [show ofText? "" = none by decide])
  simpa [ByteArray.isEmpty, String.utf8ByteSize_eq_zero_iff] using hne

end History

namespace HistoryStore

open FileTree

variable {s : HistoryStore} {t t' : FileTree} {p : Path} {l : Location}

/-! ## Stores in files -/

/-- The path leads to the file at the location, which holds the history of the store and can be
written. -/
structure KeptIn (p : Path) (l : Location) (s : HistoryStore) (t : FileTree) : Prop where
  path : s.path = some p
  wellFormed : t.WellFormed
  room : t.room = none
  leads : t.Leads p l
  onlyFile : t.OnlyFile l
  content : contentOf t p = .ok (some s.history)

/-- What was written is the content of the file. -/
theorem contentOf_of_text {h : History} (hcontent : t.contentOf p = .ok h.text.toUTF8) :
    contentOf t p = .ok (some h) := by
  have hdecode : String.fromUTF8? h.text.toUTF8 = some h.text := dif_pos h.text.isValidUTF8
  simp only [contentOf, hcontent, h.isEmpty_text, if_neg Bool.false_ne_true, hdecode,
    Option.bind_some, h.ofText?_text]

/-- A store is written where the path leads to a file. -/
theorem exists_write (htree : t.WellFormed) (hroom : t.room = none) (hleads : t.Leads p l)
    (hfile : t.OnlyFile l) (h : History) :
    ∃ u, write ⟨some p, h⟩ t = (.ok (), u) ∧ KeptIn p l ⟨some p, h⟩ u := by
  obtain ⟨u, hwrite, hstored⟩ := FileAction.writeFile_stores hleads hfile hroom h.text.toUTF8
  have hsame := (SameBut.refl htree hroom hfile).stored hstored
  exact ⟨u, by simp only [write, hwrite], {
    path := rfl
    wellFormed :=
      hstored.wellFormed htree hfile.ne_folder (parent_of_placeOf htree hleads.place)
    room := hsame.room'
    leads := hsame.leads hleads
    onlyFile := hsame.onlyFile'
    content := contentOf_of_text (FileAction.contentOf_writeFile h.isEmpty_text hwrite) }⟩

/-- A store that is kept in a file can take every history in its place. -/
theorem KeptIn.replace (hkept : KeptIn p l s t) (h : History) :
    ∃ u, s.replace h t = (.ok (), { s with history := h }, u) ∧
      KeptIn p l { s with history := h } u := by
  obtain ⟨u, hwrite, hu⟩ :=
    exists_write hkept.wellFormed hkept.room hkept.leads hkept.onlyFile h
  rw [← hkept.path] at hwrite hu
  exact ⟨u, by rw [HistoryStore.replace, hwrite], hu⟩

/-! ## Opening -/

/-- A store that is kept in a file is what opening the file gives. -/
theorem KeptIn.openFile_eq (hkept : KeptIn p l s t) (hname : namesMemory p = false) :
    openFile p t = (.ok s, t) := by
  rw [openFile, hname, if_neg Bool.false_ne_true,
    createFolderAround_of_folderThere hkept.leads.folder]
  simp only [hkept.content, ← hkept.path]

/-- The full device is no history. -/
theorem contentOf_of_zero (h : t.contentOf p = .ok ⟨#[0]⟩) :
    contentOf t p = .error (.history .notHistory) := by
  have hnone : (String.fromUTF8? ⟨#[0]⟩).bind History.ofText? = none := by decide
  simp only [contentOf, h, hnone]
  rfl

/-- What holds a history is a file. -/
theorem exists_leads_of_content {h : History} (hcontent : contentOf t p = .ok (some h))
    (hfolder : t.FolderThere p) : ∃ l, t.Leads p l ∧ t.OnlyFile l := by
  cases hbytes : t.contentOf p with
  | error e => cases e <;> simp [contentOf, hbytes] at hcontent
  | ok bytes =>
    refine exists_leads_of_contentOf hbytes ?_ hfolder
    rintro rfl
    simp [contentOf_of_zero hbytes] at hcontent

/-- What could be written for the first time is a file. -/
theorem exists_leads_of_write {h : History} (hcontent : contentOf t p = .ok none)
    (hwrite : write ⟨some p, h⟩ t = (.ok (), t')) (hfolder : t.FolderThere p) :
    ∃ l, t.Leads p l ∧ t.OnlyFile l := by
  cases hbytes : t.contentOf p with
  | error e =>
    have hmissing : t.contentOf p = .error .missing := by
      cases e <;> simp [contentOf, hbytes] at hcontent
      exact hbytes
    have hrun : (FileAction.writeFile p h.text.toUTF8).runOn t = (.ok (), t') := by
      simp only [write] at hwrite
      split at hwrite
      · next hrun => rw [hrun, (Prod.mk.inj hwrite).2]
      · simp at hwrite
      · simp at hwrite
    exact FileAction.exists_leads_of_writeFile hmissing h.isEmpty_text hrun hfolder
  | ok bytes =>
    refine exists_leads_of_contentOf hbytes ?_ hfolder
    rintro rfl
    simp [contentOf_of_zero hbytes] at hcontent

/-- An opened store is kept in its file. -/
theorem exists_keptIn (hname : namesMemory p = false) (htree : t.WellFormed)
    (hroom : t.room = none) (hopen : openFile p t = (.ok s, t')) : ∃ l, KeptIn p l s t' := by
  rw [openFile, hname, if_neg Bool.false_ne_true] at hopen
  rcases hcreate : (createFolderAround p).runOn t with ⟨e | _, t₁⟩
  · simp [hcreate] at hopen
  obtain ⟨hadded, hroom₁, hfolder⟩ := createFolderAround_cases hcreate
  have htree₁ := hadded.wellFormed htree
  rw [hroom] at hroom₁
  rw [hcreate] at hopen
  dsimp only at hopen
  split at hopen
  · simp at hopen
  · -- The file was there and is left as it is.
    next h hcontent =>
    obtain ⟨rfl, rfl⟩ : ⟨some p, h⟩ = s ∧ t₁ = t' := by simpa using hopen
    obtain ⟨l, hleads, hfile⟩ := exists_leads_of_content hcontent hfolder
    exact ⟨l, rfl, htree₁, hroom₁, hleads, hfile, hcontent⟩
  · -- The file is written for the first time.
    next hcontent =>
    rcases hwrite : write ⟨some p, .empty⟩ t₁ with ⟨e | _, t₂⟩
    all_goals rw [hwrite] at hopen
    · simp [Except.map] at hopen
    · obtain ⟨rfl, rfl⟩ : ⟨some p, .empty⟩ = s ∧ t₂ = t' := by simpa [Except.map] using hopen
      obtain ⟨l, hleads, hfile⟩ := exists_leads_of_write hcontent hwrite hfolder
      obtain ⟨u, hwrite', hkept⟩ := exists_write htree₁ hroom₁ hleads hfile .empty
      obtain rfl : t₂ = u := (Prod.mk.inj (hwrite.symm.trans hwrite')).2
      exact ⟨l, hkept⟩

/-! ## Answers -/

open History (Answer Log Follows answers)

/-- What a store answers, and the store and the tree after it.  What was in memory is lost when it
is closed. -/
def perform (state : HistoryStore × FileTree) : History.Operation → Answer × HistoryStore × FileTree
  | .record records =>
    match state.1.record records state.2 with
    | (.ok (), after) => (.recorded records.length, after)
    | (.error e, after) => (.refused e, after)
  | .lookup id => (.known (state.1.history.lookup id), state)
  | .count => (.counted (.ofNat state.1.history.count), state)
  | .reset =>
    match state.1.reset state.2 with
    | (.ok (), after) => (.done, after)
    | (.error e, after) => (.refused e, after)
  | .reopen =>
    match state.1.path with
    | none => (.done, .inMemory, state.2)
    | some p =>
      match openFile p state.2 with
      | (.ok s, t) => (.done, s, t)
      | (.error e, t) => (.refused e, state.1, t)

/-- A store that can take every history, and stays what it is when it is opened again, gives the
right answers. -/
theorem answers_of_replace {K : HistoryStore → FileTree → Prop}
    (hreplace : ∀ s t h, K s t →
      ∃ u, s.replace h t = (.ok (), { s with history := h }, u) ∧ K { s with history := h } u)
    {operations : List History.Operation} (hregular : ∀ r ∈ operations, r.IsRegular)
    (hreopen : .reopen ∈ operations → ∀ s t, K s t → perform (s, t) .reopen = (.done, s, t))
    (hstart : K s t) (hempty : s.history = .empty) :
    answers perform (s, t) operations = answers Log.perform [] operations := by
  refine History.answers_eq (P := fun r => r.IsRegular ∧ r ∈ operations)
    (R := fun state log => K state.1 state.2 ∧ state.1.history.Follows log) ?_
    ⟨hstart, hempty ▸ Follows.empty⟩ fun r hr => ⟨hregular r hr, hr⟩
  rintro ⟨s, t⟩ log operation ⟨hkept, hlog⟩ ⟨hoperation, hmem⟩
  dsimp only at hkept hlog
  cases operation with
  | record records =>
    obtain ⟨h, hrecord, hlater⟩ := hlog.record fun r hr => (hoperation r hr).1
    obtain ⟨u, hreplaced, hu⟩ := hreplace s t h hkept
    simp only [perform, Log.perform, record, hrecord, hreplaced]
    exact ⟨trivial, hu, hlater⟩
  | lookup id => exact ⟨by simp only [perform, Log.perform, hlog.lookup_eq], hkept, hlog⟩
  | count => exact ⟨by simp only [perform, Log.perform, hlog.count_eq], hkept, hlog⟩
  | reset =>
    obtain ⟨u, hreplaced, hu⟩ := hreplace s t .empty hkept
    simp only [perform, Log.perform, reset, hreplaced]
    exact ⟨trivial, hu, Follows.empty⟩
  | reopen =>
    rw [hreopen hmem s t hkept]
    exact ⟨rfl, hkept, hlog⟩

/-- A store in a file that was opened anew where there is room gives the right answers, and so does
a store in memory as long as it is not closed. -/
theorem answers_eq_log {operations : List History.Operation}
    (hregular : ∀ r ∈ operations, r.IsRegular) :
    (.reopen ∉ operations → ∀ t,
      answers perform (.inMemory, t) operations = answers Log.perform [] operations) ∧
    ∀ p t₀ s t, namesMemory p = false → t₀.WellFormed → t₀.room = none →
      openFile p t₀ = (.ok s, t) → s.history = .empty →
      answers perform (s, t) operations = answers Log.perform [] operations := by
  refine ⟨fun hopen t => ?_, fun p t₀ s t hname htree hroom hopen hempty => ?_⟩
  · refine answers_of_replace (K := fun s _ => s.path = none) (fun s t h hpath => ?_) hregular
      (fun hmem => absurd hmem hopen) rfl rfl
    exact ⟨t, by simp only [replace, write, hpath], hpath⟩
  · obtain ⟨l, hkept⟩ := exists_keptIn hname htree hroom hopen
    refine answers_of_replace (fun s t h hkept => KeptIn.replace hkept h) hregular
      (fun _ s t hkept => ?_) hkept hempty
    simp only [perform, hkept.path, hkept.openFile_eq hname]

/-- So it answers as a store in any database does that has no table in its file. -/
theorem answers_eq_database {σ : Type} {db : Database σ} {Shows : Option Path → σ → View → Prop}
    {Keeps : Path → σ → Option (Multiset History.Columns) → Prop}
    (hlawful : db.IsLawful Shows Keeps) {operations : List History.Operation}
    (hregular : ∀ r ∈ operations, r.IsRegular) {p : Path} {d : σ} (hname : namesMemory p = false)
    (htree : t.WellFormed) (hroom : t.room = none) (hopen : openFile p t = (.ok s, t'))
    (hempty : s.history = .empty) (hkeeps : Keeps p d none) :
    ∃ t'' d', db.openFile p t d = (.ok (), t'', d') ∧
      answers perform (s, t') operations =
        answers (DatabaseStore.perform db) ⟨some p, d', t''⟩ operations := by
  have hfolder : ∃ t'', (createFolderAround p).runOn t = (.ok (), t'') := by
    rw [openFile, hname, if_neg Bool.false_ne_true] at hopen
    rcases hcreate : (createFolderAround p).runOn t with ⟨e | _, t''⟩
    · simp [hcreate] at hopen
    · exact ⟨t'', rfl⟩
  obtain ⟨t'', hfolder⟩ := hfolder
  obtain ⟨d', hrun, hagrees⟩ := DatabaseStore.exists_agrees_file hlawful hkeeps hfolder
  refine ⟨t'', d', hrun, ?_⟩
  rw [(answers_eq_log hregular).2 p t s t' hname htree hroom hopen hempty,
    hagrees.answers_eq hlawful hregular fun _ => Option.some_ne_none p]

end HistoryStore

end PhotoIntake
