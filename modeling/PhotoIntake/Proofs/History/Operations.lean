import PhotoIntake.Proofs.History.Records
import Mathlib.Data.List.Dedup

/-!
# What is done with a store, and the map behind it

A store records downloads, looks files up, counts them, forgets all of them, and may be closed and
opened again.  What it answers has to depend on the records since the last reset alone: a file is
known by its last record, and the files are counted by what they are recognised by.

* `answers_eq`: what answers every operation alike answers every course of operations alike.
* `Log.perform`: the right answers, given from the records themselves.
* `Follows`: a history is what became of such records.
* `Follows.lookup_eq` and `Follows.count_eq`: it knows and counts the files that have a record.
-/

namespace PhotoIntake.History

/-! ## Operations and answers -/

/-- What is done with a store. -/
inductive Operation where
  | record (records : List Record)
  | lookup (id : FileIdentity)
  | count
  | reset
  | reopen

/-- What a store answers.  A count is a word of 64 bits. -/
inductive Answer where
  | recorded (number : Nat)
  | known (download : Option Download)
  | counted (number : UInt64)
  | done
  | refused (e : IntakeError)

/-- All recorded files have times, and all sizes are counts of 64 bits. -/
def Operation.IsRegular : Operation → Prop
  | .record records =>
    ∀ r ∈ records, r.identity.modified ≠ .nan ∧ r.identity.size < UInt64.size
  | .lookup id => id.size < UInt64.size
  | _ => True

/-- The answers to operations that are made one after the other. -/
def answers {σ : Type} (perform : σ → Operation → Answer × σ) : σ → List Operation → List Answer
  | _, [] => []
  | state, operation :: rest =>
    (perform state operation).1 :: answers perform (perform state operation).2 rest

/-- Related states that give one answer to every operation, and are related after it, give the same
answers to all operations. -/
theorem answers_eq {σ τ : Type} {perform : σ → Operation → Answer × σ}
    {perform' : τ → Operation → Answer × τ} {R : σ → τ → Prop} {P : Operation → Prop}
    (hstep : ∀ s s' operation, R s s' → P operation →
      (perform s operation).1 = (perform' s' operation).1 ∧
        R (perform s operation).2 (perform' s' operation).2)
    {s : σ} {s' : τ} (hrelated : R s s') {operations : List Operation} (h : ∀ r ∈ operations, P r) :
    answers perform s operations = answers perform' s' operations := by
  induction operations generalizing s s' with
  | nil => rfl
  | cons operation rest ih =>
    obtain ⟨hanswer, hafter⟩ := hstep s s' operation hrelated (h operation List.mem_cons_self)
    rw [answers, answers, hanswer, ih hafter fun r hr => h r (List.mem_cons_of_mem _ hr)]

/-! ## The map -/

/-- The identities without those that are taken for a later one. -/
def distinct (ids : List FileIdentity) : List FileIdentity :=
  ids.pwFilter fun a b => ¬ a.Same b

/-- The records since the last reset, the latest one at the end. -/
abbrev Log := List Record

/-- What is to be answered after these records. -/
def Log.perform (log : Log) : Operation → Answer × Log
  | .record records => (.recorded records.length, log ++ records)
  | .lookup id => (.known ((lastOf? log id).map Record.download), log)
  | .count => (.counted (.ofNat (distinct (log.map Record.identity)).length), log)
  | .reset => (.done, [])
  | .reopen => (.done, log)

/-! ## Counting -/

/-- Identities of files with times have as many keys as there are distinct ones. -/
theorem dedup_map_keyOf? {ids : List FileIdentity} (h : ∀ id ∈ ids, id.modified ≠ .nan) :
    (ids.map keyOf?).dedup = (distinct ids).map keyOf? := by
  induction ids with
  | nil => rfl
  | cons id rest ih =>
    have ih := ih fun b hb => h b (List.mem_cons_of_mem _ hb)
    have hlater : keyOf? id ∈ rest.map keyOf? ↔ ∃ b ∈ distinct rest, id.Same b := by
      rw [← List.mem_dedup, ih]
      simp only [List.mem_map, ← keyOf?_eq_iff (h id List.mem_cons_self), eq_comm]
    rw [List.map_cons, distinct]
    by_cases hmem : keyOf? id ∈ rest.map keyOf?
    · rw [List.dedup_cons_of_mem hmem, ih, List.pwFilter_cons_of_neg, distinct]
      simpa [distinct] using hlater.1 hmem
    · rw [List.dedup_cons_of_notMem hmem, ih, List.pwFilter_cons_of_pos, List.map_cons, distinct]
      simpa [distinct] using mt hlater.2 hmem

/-- A key behind others is counted in place of the same key among them. -/
theorem dedup_concat (keys : List Key) (key : Key) :
    (keys ++ [key]).dedup = keys.dedup.filter (· != key) ++ [key] := by
  induction keys with
  | nil => rfl
  | cons first rest ih =>
    rw [List.cons_append]
    by_cases hrest : first ∈ rest
    · rw [List.dedup_cons_of_mem (List.mem_append_left _ hrest), ih, List.dedup_cons_of_mem hrest]
    · rw [List.dedup_cons_of_notMem hrest]
      by_cases hkey : first = key
      · rw [List.dedup_cons_of_mem (by simp [hkey]), ih, List.filter_cons_of_neg (by simp [hkey])]
      · rw [List.dedup_cons_of_notMem (by simp [hrest, hkey]), ih,
          List.filter_cons_of_pos (by simp [hkey]), List.cons_append]

theorem keys_put (h : History) (row : Row) :
    (h.put row).rows.map Row.key = (h.rows.map Row.key).filter (· != row.key) ++ [row.key] := by
  rw [put, List.map_append, List.filter_map]
  rfl

/-- Every key is kept once. -/
theorem keys_foldl_put (rows : List Row) :
    (rows.foldl put .empty).rows.map Row.key = (rows.map Row.key).dedup := by
  induction rows using List.reverseRecOn with
  | nil => rfl
  | append_singleton rows row ih =>
    rw [List.foldl_concat, keys_put, ih, List.map_append, List.map_singleton, dedup_concat]

theorem keys_of_mapM {records : List Record} {rows : List Row}
    (h : records.mapM Record.row? = some rows) :
    rows.map (fun row => some row.key) = (records.map Record.identity).map keyOf? := by
  induction records generalizing rows with
  | nil =>
    obtain rfl : [] = rows := by simpa using h
    rfl
  | cons r rest ih =>
    rw [List.mapM_cons] at h
    obtain ⟨row, hrow, h⟩ := Option.bind_eq_some_iff.1 h
    obtain ⟨others, hothers, h⟩ := Option.bind_eq_some_iff.1 h
    obtain rfl := Option.some.inj h
    rw [List.map_cons, ih hothers, ← (Record.download_row? hrow).1]
    rfl

/-! ## Histories that follow a log -/

theorem record?_append (h : History) (records more : List Record) :
    h.record? (records ++ more) = (h.record? records).bind (·.record? more) := by
  induction records generalizing h with
  | nil => rfl
  | cons r rest ih =>
    rw [List.cons_append, record?_cons, record?_cons]
    cases r.row? with
    | none => rfl
    | some row => exact ih (h.put row)

/-- Only records of files with times are taken up. -/
theorem times_of_record? {h h' : History} {records : List Record}
    (hrecord : h.record? records = some h') : ∀ r ∈ records, r.identity.modified ≠ .nan := by
  induction records generalizing h with
  | nil => simp
  | cons r rest ih =>
    rw [record?_cons] at hrecord
    obtain ⟨row, hrow, hrest⟩ := Option.bind_eq_some_iff.1 hrecord
    refine List.forall_mem_cons.2 ⟨fun hnan => ?_, ih hrest⟩
    have hkey := (Record.download_row? hrow).1
    rw [keyOf?_eq_none hnan] at hkey
    cases hkey

/-- The history is what the records make of an empty one. -/
def Follows (h : History) (log : Log) : Prop :=
  History.empty.record? log = some h

namespace Follows

variable {h : History} {log : Log}

theorem empty : Follows .empty [] :=
  rfl

/-- More records of files with times are taken up. -/
theorem record (hlog : h.Follows log) {records : List Record}
    (htimes : ∀ r ∈ records, r.identity.modified ≠ .nan) :
    ∃ h', h.record? records = some h' ∧ h'.Follows (log ++ records) := by
  obtain ⟨h', hrecord, -⟩ := lookup_record? h htimes
  refine ⟨h', hrecord, ?_⟩
  rw [Follows, record?_append, hlog, Option.bind_some, hrecord]

/-- A file is known by its last record. -/
theorem lookup_eq (hlog : h.Follows log) (id : FileIdentity) :
    h.lookup id = (lastOf? log id).map Record.download := by
  obtain ⟨h', hrecord, hlookup⟩ := lookup_record? .empty (times_of_record? hlog)
  obtain rfl : h' = h := Option.some.inj (hrecord.symm.trans hlog)
  have hempty : History.empty.lookup id = none := by
    unfold lookup
    cases keyOf? id <;> rfl
  rw [hlookup, hempty, Option.or_none]

/-- No two rows have one key. -/
theorem nodup_keys (hlog : h.Follows log) : (h.rows.map Row.key).Nodup := by
  obtain ⟨rows, -, rfl⟩ := Option.map_eq_some_iff.1 hlog
  rw [keys_foldl_put]
  exact List.nodup_dedup _

/-- The rows are as many as the files with a record. -/
theorem count_eq (hlog : h.Follows log) :
    h.count = (distinct (log.map Record.identity)).length := by
  obtain ⟨rows, hrows, rfl⟩ := Option.map_eq_some_iff.1 hlog
  have htimes : ∀ id ∈ log.map Record.identity, id.modified ≠ .nan :=
    List.forall_mem_map.2 (times_of_record? hlog)
  have hkeys : (rows.map Row.key).map some = (log.map Record.identity).map keyOf? := by
    rw [List.map_map, ← keys_of_mapM hrows]
    rfl
  calc (rows.foldl put .empty).count = ((rows.foldl put .empty).rows.map Row.key).length := by
        rw [List.length_map, count]
    _ = ((rows.map Row.key).dedup.map some).length := by
        rw [keys_foldl_put, List.length_map]
    _ = ((distinct (log.map Record.identity)).map keyOf?).length := by
        rw [← List.dedup_map_of_injective (Option.some_injective _), hkeys, dedup_map_keyOf? htimes]
    _ = (distinct (log.map Record.identity)).length := List.length_map _

end Follows

end PhotoIntake.History
