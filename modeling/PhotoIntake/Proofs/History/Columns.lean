import PhotoIntake.History.Database
import PhotoIntake.Proofs.History.Operations
import Mathlib.Data.Multiset.Filter

/-!
# The rows of a table

A table has no type for sizes of 64 bits without a sign, and it compares times as numbers.  So it
keeps a size of the greater half as a negative number, and it replaces and finds rows by comparing
columns.  No two sizes are kept alike and every time is read back from its text, so that the rows
are those of a history.

* `Columns.IsOf`: the row has a key; `Columns.isOf_iff` says that keys are compared as files are.
* `Represents`: the rows of a table, in any order, are those of a history.
* `Represents.insert`: so it is when a row has been inserted.
* `Represents.lookup_of_mem`, `Represents.lookup_of_forall_not` and `Represents.card_eq`: the row
  that is found and the number of rows are those of the history.
-/

namespace PhotoIntake.History

/-! ## Columns -/

/-- The size comes back when the sign is taken for a bit again. -/
theorem toNat_signed {size : Nat} (h : size < UInt64.size) :
    (signed size).toUInt64.toNat = size := by
  rw [signed, UInt64.toUInt64_toInt64, UInt64.toNat_ofNat_of_lt' h]

/-- So sizes that are kept alike are the same. -/
theorem eq_signed_iff {kept : Int64} {size : Nat} (h : size < UInt64.size) :
    kept = signed size ↔ kept.toUInt64.toNat = size := by
  refine ⟨fun hkept => by rw [hkept, toNat_signed h], fun hkept => ?_⟩
  rw [signed, ← hkept, UInt64.ofNat_toNat, Int64.toInt64_toUInt64]

namespace Columns

/-- The row has the key.  Times are compared as numbers. -/
def IsOf (c : Columns) (name : String) (size : Int64) (modified : Float) : Prop :=
  c.name = name ∧ c.size = size ∧ (c.modified == modified) = true

instance (c : Columns) (name : String) (size : Int64) (modified : Float) :
    Decidable (c.IsOf name size modified) :=
  inferInstanceAs (Decidable (_ ∧ _))

/-- The row of a history with the same content, if there are times in both columns. -/
def row? (c : Columns) : Option Row :=
  if c.modified = .nan then none
  else c.time.map fun time =>
    ⟨⟨c.name, c.size.toUInt64.toNat, timeBits c.modified⟩, c.target, time⟩

variable {c : Columns} {row : Row} {r : Record} {id : FileIdentity} {key : Key}

theorem row?_eq_some_iff : c.row? = some row ↔ c.modified ≠ .nan ∧ ∃ time, c.time = some time ∧
    row = ⟨⟨c.name, c.size.toUInt64.toNat, timeBits c.modified⟩, c.target, time⟩ := by
  unfold row?
  split_ifs with htime
  · simp [htime]
  · simp [htime, eq_comm]

/-- A record is kept as it is kept in a history. -/
theorem row?_ofRecord (hsize : r.identity.size < UInt64.size) : (ofRecord r).row? = r.row? := by
  by_cases htime : r.identity.modified = .nan
  · rw [Record.row?, keyOf?_eq_none htime, row?, ofRecord, if_pos htime]
    rfl
  · rw [Record.row?, keyOf?_eq_some htime, row?, ofRecord, if_neg htime, toNat_signed hsize]
    rfl

/-- Columns are compared as keys are. -/
theorem isOf_iff (hrow : c.row? = some row) (hkey : keyOf? id = some key)
    (hsize : id.size < UInt64.size) :
    c.IsOf id.name (signed id.size) id.modified ↔ row.key = key := by
  obtain ⟨htime, time, -, rfl⟩ := row?_eq_some_iff.1 hrow
  have htime' : id.modified ≠ .nan := fun hnan => by simp [keyOf?_eq_none hnan] at hkey
  rw [keyOf?_eq_some htime'] at hkey
  obtain rfl := Option.some.inj hkey
  simp [IsOf, eq_signed_iff hsize, timeBits_eq_iff htime htime']

/-- No row is that of a file without a time. -/
theorem not_isOf_of_nan (c : Columns) (h : id.modified = .nan) :
    ¬ c.IsOf id.name (signed id.size) id.modified := by
  simp [IsOf, h]

/-- What is found tells what the row of the history tells. -/
theorem ofColumns_of_row? (hrow : c.row? = some row) :
    ofColumns c.target c.time = row.download := by
  obtain ⟨-, time, htime, rfl⟩ := row?_eq_some_iff.1 hrow
  rw [ofColumns, htime]
  rfl

end Columns

/-! ## Tables -/

/-- The rows of the table are those of the history, in any order. -/
def Represents (rows : Multiset Columns) (h : History) : Prop :=
  rows.map Columns.row? = h.rows.map some

namespace Represents

variable {rows : Multiset Columns} {h : History} {c : Columns} {row : Row}

theorem empty : Represents 0 .empty :=
  rfl

theorem exists_row (hrows : Represents rows h) (hc : c ∈ rows) :
    ∃ row ∈ h.rows, c.row? = some row := by
  have hmem : c.row? ∈ (h.rows.map some : Multiset (Option Row)) :=
    hrows ▸ Multiset.mem_map_of_mem Columns.row? hc
  obtain ⟨row, hrow, hsome⟩ := List.mem_map.1 (Multiset.mem_coe.1 hmem)
  exact ⟨row, hrow, hsome.symm⟩

theorem exists_columns (hrows : Represents rows h) (hrow : row ∈ h.rows) :
    ∃ c ∈ rows, c.row? = some row := by
  have hmem : some row ∈ rows.map Columns.row? := by
    rw [Represents] at hrows
    rw [hrows]
    exact Multiset.mem_coe.2 (List.mem_map_of_mem hrow)
  exact Multiset.mem_map.1 hmem

/-- There are as many rows. -/
theorem card_eq (hrows : Represents rows h) : Multiset.card rows = h.count := by
  have hcard := congrArg Multiset.card hrows
  rwa [Multiset.card_map, Multiset.coe_card, List.length_map] at hcard

/-- A row that takes the place of the one with its key does so in the history. -/
theorem insert (hrows : Represents rows h) {r : Record} (htime : r.identity.modified ≠ .nan)
    (hsize : r.identity.size < UInt64.size) :
    let c := Columns.ofRecord r
    ∃ row, r.row? = some row ∧
      Represents (c ::ₘ rows.filter fun old => ¬ old.IsOf c.name c.size c.modified)
        (h.put row) := by
  intro c
  obtain ⟨row, hrow⟩ := Record.exists_row? htime
  have hc : c.row? = some row := (Columns.row?_ofRecord hsize).trans hrow
  have hkey := (Record.download_row? hrow).1
  refine ⟨row, hrow, ?_⟩
  -- A row stays if its key is another one.
  let stays (old : Option Row) : Prop := ∀ row' ∈ old, row'.key ≠ row.key
  have hstays : rows.filter (fun old => ¬ old.IsOf c.name c.size c.modified) =
      rows.filter (stays ∘ Columns.row?) := by
    refine Multiset.filter_congr fun old hold => ?_
    obtain ⟨row', -, hrow'⟩ := hrows.exists_row hold
    have hsame := Columns.isOf_iff hrow' hkey hsize
    simp only [Function.comp_apply, hrow', stays, Option.mem_some_iff, forall_eq']
    exact not_congr hsame
  rw [Represents] at hrows
  have hput : (h.put row).rows.map some =
      (h.rows.map some).filter (fun old => decide (stays old)) ++ [some row] := by
    simp [put, List.filter_map, Function.comp_def, stays, bne, beq_eq_decide]
  rw [Represents, Multiset.map_cons, hc, hstays, ← Multiset.filter_map, hrows, hput,
    Multiset.filter_coe, ← Multiset.coe_add, add_comm]
  rfl

/-- A row that is found is that of the history. -/
theorem lookup_of_mem (hrows : Represents rows h) (hnodup : (h.rows.map Row.key).Nodup)
    {id : FileIdentity} (hsize : id.size < UInt64.size) (hc : c ∈ rows)
    (hkey : c.IsOf id.name (signed id.size) id.modified) :
    h.lookup id = some (ofColumns c.target c.time) := by
  obtain ⟨row, hmem, hrow⟩ := hrows.exists_row hc
  have htime : id.modified ≠ .nan := fun hnan => c.not_isOf_of_nan hnan hkey
  have hid := keyOf?_eq_some htime
  have hsame := (Columns.isOf_iff hrow hid hsize).1 hkey
  have hfound : h.rowOf? row.key = some row := by
    obtain ⟨other, hother⟩ : ∃ other, h.rowOf? row.key = some other :=
      Option.isSome_iff_exists.1 (List.find?_isSome.2 ⟨row, hmem, beq_self_eq_true _⟩)
    have hotherKey : other.key = row.key := by simpa using List.find?_some hother
    rw [hother, List.inj_on_of_nodup_map hnodup (List.mem_of_find?_eq_some hother) hmem hotherKey]
  rw [lookup_eq_of_key hid, ← hsame, hfound, Option.map_some, Columns.ofColumns_of_row? hrow]

/-- Where no row is found the history has none. -/
theorem lookup_of_forall_not (hrows : Represents rows h) {id : FileIdentity}
    (hsize : id.size < UInt64.size)
    (hnone : ∀ c ∈ rows, ¬ c.IsOf id.name (signed id.size) id.modified) : h.lookup id = none := by
  by_cases htime : id.modified = .nan
  · rw [History.lookup, keyOf?_eq_none htime]
  · have hid := keyOf?_eq_some htime
    rw [lookup_eq_of_key hid, Option.map_eq_none_iff]
    refine List.find?_eq_none.2 fun row hrow hkey => ?_
    obtain ⟨c, hc, hcrow⟩ := hrows.exists_columns hrow
    exact hnone c hc ((Columns.isOf_iff hcrow hid hsize).2 (by simpa using hkey))

end Represents

end PhotoIntake.History
