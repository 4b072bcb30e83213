import PhotoIntake.History.Store
import PhotoIntake.Proofs.Calendar.RoundTrip
import PhotoIntake.Proofs.History.Identity

/-!
# What a history knows after downloads were recorded

Of several records of one file the last one counts, and a record says nothing of other files.

* `rowOf?_put` is what one row does, `rowOf?_foldl_put` what many rows do.
* `lookup_record?`: after records of files with times were taken up, a file that one of them is
  about is known by the last such record, and what is known of every other file stays.
* `HistoryStore.record_of_worksIn`: a store that can be written takes all records up.
-/

namespace PhotoIntake

namespace History

/-! ## Rows -/

/-- The row of a key. -/
def rowOf? (h : History) (key : Key) : Option Row :=
  h.rows.find? (·.key == key)

theorem lookup_eq_of_key {h : History} {id : FileIdentity} {key : Key}
    (hkey : keyOf? id = some key) : h.lookup id = (h.rowOf? key).map Row.download := by
  simp only [lookup, hkey, rowOf?]

theorem rowOf?_put (h : History) (row : Row) (key : Key) :
    (h.put row).rowOf? key = if row.key = key then some row else h.rowOf? key := by
  by_cases hkey : row.key = key
  · have hnone : (h.rows.filter (·.key != row.key)).find? (·.key == key) = none := by
      refine List.find?_eq_none.2 fun r hr => ?_
      simpa [hkey] using (List.mem_filter.1 hr).2
    rw [rowOf?, put, List.find?_append, hnone]
    simp [hkey]
  · have hothers : (h.rows.filter (·.key != row.key)).find? (·.key == key) = h.rowOf? key := by
      rw [List.find?_filter, rowOf?]
      congr 1
      funext r
      by_cases hr : r.key = key <;> simp [hr, Ne.symm hkey]
    rw [rowOf?, put, List.find?_append, hothers]
    simp [hkey]

/-! ## Records -/

/-- What a record tells. -/
def Record.download (r : Record) : Download :=
  ⟨r.target, some r.time⟩

/-- The row of a record tells what the record tells. -/
theorem Record.download_row? {r : Record} {row : Row} (h : r.row? = some row) :
    keyOf? r.identity = some row.key ∧ row.download = r.download := by
  obtain ⟨key, hkey, rfl⟩ := Option.map_eq_some_iff.1 h
  exact ⟨hkey, by rw [Row.download, Calendar.DateTime.read?_text, Record.download]⟩

/-- A file with a time has a row. -/
theorem Record.exists_row? {r : Record} (h : r.identity.modified ≠ .nan) :
    ∃ row, r.row? = some row := by
  rw [row?, keyOf?_eq_some h]
  exact ⟨_, rfl⟩

theorem lookup_put {r : Record} {row : Row} (htime : r.identity.modified ≠ .nan)
    (hrow : r.row? = some row) (h : History) (id : FileIdentity) :
    (h.put row).lookup id = if r.identity.Same id then some r.download else h.lookup id := by
  obtain ⟨hkey, hdownload⟩ := Record.download_row? hrow
  have hsame : r.identity.Same id ↔ keyOf? id = some row.key := by
    rw [← keyOf?_eq_iff htime, hkey, eq_comm]
  cases hid : keyOf? id with
  | none =>
    rw [if_neg (by simp [hsame, hid])]
    simp only [lookup, hid]
  | some key =>
    rw [lookup_eq_of_key hid, lookup_eq_of_key hid, rowOf?_put]
    by_cases hsameKey : row.key = key
    · rw [if_pos hsameKey, if_pos (hsame.2 (hid.trans (congrArg some hsameKey.symm))),
        Option.map_some, hdownload]
    · rw [if_neg hsameKey, if_neg]
      exact fun h => hsameKey (Option.some.inj (hid.symm.trans (hsame.1 h))).symm

theorem record?_cons (h : History) (r : Record) (rest : List Record) :
    h.record? (r :: rest) = r.row?.bind fun row => (h.put row).record? rest := by
  simp only [record?, List.mapM_cons]
  cases r.row? with
  | none => rfl
  | some row => cases rest.mapM Record.row? <;> rfl

/-- The last record of a file. -/
def lastOf? (records : List Record) (id : FileIdentity) : Option Record :=
  records.reverse.find? fun r => decide (r.identity.Same id)

theorem lastOf?_cons (r : Record) (rest : List Record) (id : FileIdentity) :
    lastOf? (r :: rest) id =
      (lastOf? rest id).or (if r.identity.Same id then some r else none) := by
  rw [lastOf?, List.reverse_cons, List.find?_append, lastOf?]
  by_cases h : r.identity.Same id <;> simp [h]

/-- Records of files with times can all be taken up.  Then the last record of a file tells what is
known of it, and of files without a record as much is known as before. -/
theorem lookup_record? (h : History) {records : List Record}
    (htimes : ∀ r ∈ records, r.identity.modified ≠ .nan) :
    ∃ h', h.record? records = some h' ∧
      ∀ id, h'.lookup id = ((lastOf? records id).map Record.download).or (h.lookup id) := by
  induction records generalizing h with
  | nil => exact ⟨h, rfl, fun id => rfl⟩
  | cons r rest ih =>
    have htime := htimes r List.mem_cons_self
    obtain ⟨row, hrow⟩ := Record.exists_row? htime
    obtain ⟨h', hrecord, hlookup⟩ := ih (h.put row) fun s hs => htimes s (List.mem_cons_of_mem _ hs)
    refine ⟨h', by rw [record?_cons, hrow, Option.bind_some, hrecord], fun id => ?_⟩
    rw [hlookup, lookup_put htime hrow, lastOf?_cons]
    cases lastOf? rest id with
    | some last => simp
    | none => split_ifs <;> simp

/-- The last record of a file comes after all others that are about it. -/
theorem lastOf?_append {before after : List Record} {r : Record} {id : FileIdentity}
    (hr : r.identity.Same id) (hafter : ∀ s ∈ after, ¬ s.identity.Same id) :
    lastOf? (before ++ r :: after) id = some r := by
  have hnone : after.reverse.find? (fun s => decide (s.identity.Same id)) = none :=
    List.find?_eq_none.2 fun s hs => by simpa using hafter s (List.mem_reverse.1 hs)
  simp [lastOf?, List.find?_append, hnone, hr]

theorem isSome_lastOf?_iff {records : List Record} {id : FileIdentity} :
    (lastOf? records id).isSome = true ↔ ∃ r ∈ records, r.identity.Same id := by
  simp [lastOf?]

theorem lastOf?_eq_none {records : List Record} {id : FileIdentity}
    (h : ∀ r ∈ records, ¬ r.identity.Same id) : lastOf? records id = none := by
  rw [← Option.not_isSome_iff_eq_none, isSome_lastOf?_iff]
  rintro ⟨r, hr, hsame⟩
  exact h r hr hsame

end History

namespace HistoryStore

/-- Whatever the store holds can be written. -/
def WorksIn (s : HistoryStore) (t : FileTree) : Prop :=
  ∀ h : History, (({ s with history := h } : HistoryStore).write t).1 = .ok ()

theorem worksIn_inMemory (h : History) (t : FileTree) : WorksIn ⟨none, h⟩ t :=
  fun _ => rfl

/-- A store that can be written takes all records up. -/
theorem record_of_worksIn {s : HistoryStore} {t : FileTree} (hworks : s.WorksIn t)
    {records : List History.Record} (htimes : ∀ r ∈ records, r.identity.modified ≠ .nan) :
    ∃ h t', s.record records t = (.ok (), { s with history := h }, t') ∧
      ∀ id, h.lookup id =
        ((History.lastOf? records id).map History.Record.download).or (s.history.lookup id) := by
  obtain ⟨h, hrecord, hlookup⟩ := s.history.lookup_record? htimes
  have hok := hworks h
  rcases hwrite : ({ s with history := h } : HistoryStore).write t with ⟨result, t'⟩
  rw [hwrite] at hok
  obtain rfl : result = .ok () := hok
  refine ⟨h, t', ?_, hlookup⟩
  simp only [record, hrecord, replace, hwrite]

end HistoryStore

end PhotoIntake
