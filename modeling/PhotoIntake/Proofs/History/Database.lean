import PhotoIntake.Proofs.FileTree.Stored
import PhotoIntake.Proofs.History.Columns

/-!
# What is done with a database

The database is not part of this library.  What is known of it is what its documentation says of
each statement; `Database.IsLawful` lists this.  From it follows what the operations of a store come
to, which are made of several statements.

* `View`: what can be seen of a database, outside of a transaction and within one.
* `Database.IsLawful`: what each statement answers, and what is seen after it.
* `IsLawful.record` and the lemmas beside it: the table represents a history, and the operations
  come to those on histories.
* `IsLawful.record_refused`: a batch that cannot be taken up leaves the table as it was.
-/

namespace PhotoIntake

open History (Columns Represents)

/-! ## Statements -/

namespace Statement

variable {σ α β : Type}

theorem runOn_bind (statement : Statement σ α) (next : α → Statement σ β) (d : σ) :
    runOn (statement >>= next) d =
      match statement.runOn d with
      | (.ok a, d') => (next a).runOn d'
      | (.error e, d') => (.error e, d') := by
  simp only [runOn, ExceptT.run, bind, ExceptT.bind, ExceptT.mk, StateT.run, StateT.bind,
    ExceptT.bindCont]
  rcases statement d with ⟨r | r, d'⟩ <;> rfl

theorem runOn_tryCatch (statement : Statement σ α) (handler : HistoryError → Statement σ α)
    (d : σ) :
    runOn (tryCatch statement handler) d =
      match statement.runOn d with
      | (.ok a, d') => (.ok a, d')
      | (.error e, d') => (handler e).runOn d' := by
  simp only [runOn, ExceptT.run, tryCatch, tryCatchThe, MonadExceptOf.tryCatch, ExceptT.tryCatch,
    ExceptT.mk, StateT.run, bind, StateT.bind]
  rcases statement d with ⟨r | r, d'⟩ <;> rfl

variable {statement : Statement σ α} {d : σ} {P Q : σ → Prop} {a : α} {b : β} {e : HistoryError}

/-- The statement succeeds on the database with this result, and the database after it is such a
one. -/
def Gives (statement : Statement σ α) (d : σ) (a : α) (P : σ → Prop) : Prop :=
  ∃ d', statement.runOn d = (.ok a, d') ∧ P d'

/-- The statement fails on the database, and the database after it is such a one. -/
def Refuses (statement : Statement σ α) (d : σ) (e : HistoryError) (P : σ → Prop) : Prop :=
  ∃ d', statement.runOn d = (.error e, d') ∧ P d'

theorem gives_pure (a : α) (hd : P d) : Gives (pure a) d a P :=
  ⟨d, rfl, hd⟩

theorem Gives.bind {next : α → Statement σ β} (h : statement.Gives d a P)
    (hnext : ∀ d', P d' → (next a).Gives d' b Q) : Gives (statement >>= next) d b Q := by
  obtain ⟨d', hrun, hd'⟩ := h
  obtain ⟨d'', hrun', hd''⟩ := hnext d' hd'
  exact ⟨d'', by rw [runOn_bind, hrun]; exact hrun', hd''⟩

theorem Gives.refuses {next : α → Statement σ β} (h : statement.Gives d a P)
    (hnext : ∀ d', P d' → (next a).Refuses d' e Q) : Refuses (statement >>= next) d e Q := by
  obtain ⟨d', hrun, hd'⟩ := h
  obtain ⟨d'', hrun', hd''⟩ := hnext d' hd'
  exact ⟨d'', by rw [runOn_bind, hrun]; exact hrun', hd''⟩

theorem Refuses.bind (h : statement.Refuses d e P) (next : α → Statement σ β) :
    Refuses (statement >>= next) d e P := by
  obtain ⟨d', hrun, hd'⟩ := h
  exact ⟨d', by rw [runOn_bind, hrun], hd'⟩

theorem Gives.tryCatch (h : statement.Gives d a P) (handler : HistoryError → Statement σ α) :
    Gives (MonadExcept.tryCatch statement handler) d a P := by
  obtain ⟨d', hrun, hd'⟩ := h
  exact ⟨d', by rw [runOn_tryCatch, hrun], hd'⟩

theorem Refuses.tryCatch {handler : HistoryError → Statement σ α} (h : statement.Refuses d e P)
    (hhandler : ∀ d', P d' → (handler e).Refuses d' e Q) :
    Refuses (MonadExcept.tryCatch statement handler) d e Q := by
  obtain ⟨d', hrun, hd'⟩ := h
  obtain ⟨d'', hrun', hd''⟩ := hhandler d' hd'
  exact ⟨d'', by rw [runOn_tryCatch, hrun]; exact hrun', hd''⟩

end Statement

/-! ## The folder of a file -/

namespace HistoryStore

open FileTree (FoldersAdded)

variable {p : Path} {t t' : FileTree}

/-- The folder around a file is there after it was created. -/
theorem createFolderAround_cases (h : (createFolderAround p).runOn t = (.ok (), t')) :
    FoldersAdded (fun _ => True) t t' ∧ t'.room = t.room ∧ t'.FolderThere p := by
  unfold createFolderAround at h
  split at h
  · next houter =>
    obtain rfl : t = t' := (Prod.mk.inj h).2
    exact ⟨.refl _ t, rfl, fun outer h => Or.inl (Option.some.inj (h.symm.trans houter))⟩
  · next outer hne houter =>
    have hadded := FileAction.createFolders_adds (Path.ofComponents outer) t
    have hroom := FileAction.keepsRoom_createFolders (Path.ofComponents outer) t
    rw [FileAction.treeAfter_of_runOn h] at hadded hroom
    refine ⟨hadded, hroom, fun outer' houter' => Or.inr ?_⟩
    obtain rfl : outer = outer' := Option.some.inj (houter.symm.trans houter')
    exact FileAction.isFolder_of_createFolders (Path.canonical_of_parentComponents? houter) hne h
  · next hnone =>
    obtain rfl : t = t' := (Prod.mk.inj h).2
    exact ⟨.refl _ t, rfl, fun outer h => by simp [hnone] at h⟩

/-- A folder that is there need not be created. -/
theorem createFolderAround_of_folderThere (hfolder : t.FolderThere p) :
    (createFolderAround p).runOn t = (.ok (), t) := by
  unfold createFolderAround
  split
  · rfl
  · next outer _ houter =>
    exact FileAction.runOn_createFolders_of_isFolder (Path.canonical_of_parentComponents? houter)
      (hfolder outer houter)
  · rfl

end HistoryStore

/-! ## What is known of a database -/

/-- What is seen of a database: the table, if there is one, and within a transaction also the table
before it. -/
inductive View where
  | settled (table : Option (Multiset Columns))
  | pending (before now : Option (Multiset Columns))

/-- The database does what its documentation says.  `Shows place d v` says that the open database is
the one in the file, or in memory if there is none, and that it is seen so; `Keeps p d table` says
that this table is in the file, open or not. -/
structure Database.IsLawful {σ : Type} (db : Database σ)
    (Shows : Option Path → σ → View → Prop) (Keeps : Path → σ → Option (Multiset Columns) → Prop) :
    Prop where
  /-- What is in a file is seen when it is opened, which its folder is needed for. -/
  connect {p : Path} {t : FileTree} {d : σ} {table : Option (Multiset Columns)} :
    Keeps p d table → t.FolderThere p →
      (db.connect p t).Gives d () (Shows (some p) · (.settled table))
  /-- A new database has no table. -/
  connectInMemory (d : σ) : db.connectInMemory.Gives d () (Shows none · (.settled none))
  /-- Outside of a transaction nothing is lost when the database is left. -/
  durable {p : Path} {d : σ} {table : Option (Multiset Columns)} :
    Shows (some p) d (.settled table) → Keeps p d table
  /-- A new table has no rows, and one that is there stays. -/
  createTable {place : Option Path} {d : σ} {table : Option (Multiset Columns)} :
    Shows place d (.settled table) →
      db.createTable.Gives d () (Shows place · (.settled (some (table.getD 0))))
  /-- An index changes no row. -/
  createIndex {place : Option Path} {d : σ} {rows : Multiset Columns} :
    Shows place d (.settled (some rows)) →
      db.createIndex.Gives d () (Shows place · (.settled (some rows)))
  dropTable {place : Option Path} {d : σ} {table : Option (Multiset Columns)} :
    Shows place d (.settled table) → db.dropTable.Gives d () (Shows place · (.settled none))
  /-- Giving back room changes no table. -/
  vacuum {place : Option Path} {d : σ} {table : Option (Multiset Columns)} :
    Shows place d (.settled table) → db.vacuum.Gives d () (Shows place · (.settled table))
  begin {place : Option Path} {d : σ} {table : Option (Multiset Columns)} :
    Shows place d (.settled table) → db.begin.Gives d () (Shows place · (.pending table table))
  commit {place : Option Path} {d : σ} {before now : Option (Multiset Columns)} :
    Shows place d (.pending before now) → db.commit.Gives d () (Shows place · (.settled now))
  rollback {place : Option Path} {d : σ} {before now : Option (Multiset Columns)} :
    Shows place d (.pending before now) → db.rollback.Gives d () (Shows place · (.settled before))
  prepareInsert {place : Option Path} {d : σ} {before : Option (Multiset Columns)}
    {rows : Multiset Columns} :
    Shows place d (.pending before (some rows)) →
      db.prepareInsert.Gives d () (Shows place · (.pending before (some rows)))
  /-- A row replaces those with its key: the same name, the same size and an equal time. -/
  insert {place : Option Path} {d : σ} {before : Option (Multiset Columns)}
    {rows : Multiset Columns} {c : Columns} :
    Shows place d (.pending before (some rows)) → c.modified ≠ .nan →
      (db.insert c).Gives d () (Shows place · (.pending before
        (some (c ::ₘ rows.filter fun old => ¬ old.IsOf c.name c.size c.modified))))
  /-- What is no number would be null, and the row is refused. -/
  insertNull {place : Option Path} {d : σ} {before : Option (Multiset Columns)}
    {rows : Multiset Columns} {c : Columns} :
    Shows place d (.pending before (some rows)) → c.modified = .nan →
      (db.insert c).Refuses d .noModificationTime (Shows place · (.pending before (some rows)))
  /-- A row with the key is found if there is one. -/
  select {place : Option Path} {d : σ} {rows : Multiset Columns} (name : String) (size : Int64)
    (modified : Float) :
    Shows place d (.settled (some rows)) → ∃ found,
      (db.select name size modified).Gives d found (Shows place · (.settled (some rows))) ∧
      (found = none → ∀ c ∈ rows, ¬ c.IsOf name size modified) ∧
      ∀ target time, found = some (target, time) →
        ∃ c ∈ rows, c.IsOf name size modified ∧ c.target = target ∧ c.time = time
  /-- The rows are counted by a signed number. -/
  count {place : Option Path} {d : σ} {rows : Multiset Columns} :
    Shows place d (.settled (some rows)) →
      db.count.Gives d (Int64.ofNat rows.card) (Shows place · (.settled (some rows)))

/-! ## What the operations of a store come to -/

namespace Database.IsLawful

open Statement (gives_pure)

variable {σ : Type} {db : Database σ} {Shows : Option Path → σ → View → Prop}
  {Keeps : Path → σ → Option (Multiset Columns) → Prop} (hlawful : db.IsLawful Shows Keeps)
  {place : Option Path} {d : σ} {table before : Option (Multiset Columns)}
  {rows : Multiset Columns} {h h' : History}

include hlawful

/-- There is a table after it was created. -/
theorem createSchema (hshows : Shows place d (.settled table)) :
    db.createSchema.Gives d () (Shows place · (.settled (some (table.getD 0)))) :=
  (hlawful.createTable hshows).bind fun _ hcreated => hlawful.createIndex hcreated

theorem openInMemory (d : σ) :
    db.openInMemory.Gives d () (Shows none · (.settled (some 0))) :=
  (hlawful.connectInMemory d).bind fun _ hopen => hlawful.createSchema hopen

/-- What is in the file is seen after it was opened. -/
theorem openFile {p : Path} {t t' : FileTree} (hkeeps : Keeps p d table)
    (hfolder : (HistoryStore.createFolderAround p).runOn t = (.ok (), t'))
    (hthere : t'.FolderThere p) :
    ∃ d', db.openFile p t d = (.ok (), t', d') ∧
      Shows (some p) d' (.settled (some (table.getD 0))) := by
  have hopened : Statement.Gives (do db.connect p t'; db.createSchema) d ()
      (Shows (some p) · (.settled (some (table.getD 0)))) :=
    (hlawful.connect hkeeps hthere).bind fun _ hopen => hlawful.createSchema hopen
  obtain ⟨d', hrun, hd'⟩ := hopened
  refine ⟨d', ?_, hd'⟩
  simp only [Database.openFile, hfolder, hrun]
  rfl

/-- No row is left by a reset. -/
theorem reset (hshows : Shows place d (.settled table)) :
    db.reset.Gives d () (Shows place · (.settled (some 0))) :=
  (hlawful.dropTable hshows).bind fun _ hdropped =>
    (hlawful.vacuum hdropped).bind fun _ hvacuumed => hlawful.createSchema hvacuumed

theorem countRows (hshows : Shows place d (.settled (some rows))) :
    db.countRows.Gives d (.ofNat rows.card) (Shows place · (.settled (some rows))) :=
  (hlawful.count hshows).bind fun _ hcounted => gives_pure _ hcounted

/-- A file is known by the row of the history. -/
theorem lookup (hshows : Shows place d (.settled (some rows))) (hrows : Represents rows h)
    (hnodup : (h.rows.map History.Row.key).Nodup) {id : FileIdentity}
    (hsize : id.size < UInt64.size) :
    (db.lookup id).Gives d (h.lookup id) (Shows place · (.settled (some rows))) := by
  obtain ⟨found, hfound, hnone, hsome⟩ :=
    hlawful.select id.name (History.signed id.size) id.modified hshows
  refine hfound.bind fun d' hd' => ?_
  cases found with
  | none =>
    rw [hrows.lookup_of_forall_not hsize (hnone rfl)]
    exact gives_pure _ hd'
  | some columns =>
    obtain ⟨c, hc, hkey, htarget, htime⟩ := hsome columns.1 columns.2 rfl
    rw [hrows.lookup_of_mem hnodup hsize hc hkey, htarget, htime]
    exact gives_pure _ hd'

/-- The rows of all records are inserted as they are put into the history. -/
theorem insertAll {records : List History.Record}
    (hshows : Shows place d (.pending before (some rows))) (hrows : Represents rows h)
    (hrecord : h.record? records = some h')
    (hregular : ∀ r ∈ records, r.identity.modified ≠ .nan ∧ r.identity.size < UInt64.size) :
    (db.insertAll records).Gives d () fun d' =>
      ∃ rows', Represents rows' h' ∧ Shows place d' (.pending before (some rows')) := by
  refine (hlawful.prepareInsert hshows).bind fun d hprepared => ?_
  clear hshows
  induction records generalizing d rows h with
  | nil =>
    obtain rfl : h = h' := by simpa [History.record?] using hrecord
    exact gives_pure _ ⟨rows, hrows, hprepared⟩
  | cons r rest ih =>
    obtain ⟨⟨htime, hsize⟩, hrest⟩ := List.forall_mem_cons.1 hregular
    obtain ⟨row, hrow, hput⟩ := hrows.insert htime hsize
    rw [History.record?_cons, hrow, Option.bind_some] at hrecord
    exact (hlawful.insert hprepared htime).bind fun d' hd' => ih hput hrecord hrest d' hd'

/-- Records of files with times are taken up as the history takes them up. -/
theorem record {records : List History.Record} (hshows : Shows place d (.settled (some rows)))
    (hrows : Represents rows h) (hrecord : h.record? records = some h')
    (hregular : ∀ r ∈ records, r.identity.modified ≠ .nan ∧ r.identity.size < UInt64.size) :
    (db.record records).Gives d records.length fun d' =>
      ∃ rows', Represents rows' h' ∧ Shows place d' (.settled (some rows')) := by
  refine (hlawful.begin hshows).bind fun d₁ hbegun => ?_
  have hkept : Statement.Gives (do db.insertAll records; db.commit) d₁ () fun d' =>
      ∃ rows', Represents rows' h' ∧ Shows place d' (.settled (some rows')) := by
    refine (hlawful.insertAll hbegun hrows hrecord hregular).bind fun d₂ hinserted => ?_
    obtain ⟨rows', hrows', hpending⟩ := hinserted
    obtain ⟨d₃, hrun, hsettled⟩ := hlawful.commit hpending
    exact ⟨d₃, hrun, rows', hrows', hsettled⟩
  exact (hkept.tryCatch _).bind fun d₃ hsettled => gives_pure _ hsettled

/-- One file without a time and its row is refused, whatever was inserted before it. -/
theorem insertAll_refused {records : List History.Record}
    (hshows : Shows place d (.pending before (some rows)))
    (hnan : ∃ r ∈ records, r.identity.modified = .nan) :
    (db.insertAll records).Refuses d .noModificationTime fun d' =>
      ∃ now, Shows place d' (.pending before now) := by
  refine (hlawful.prepareInsert hshows).refuses fun d hprepared => ?_
  clear hshows
  induction records generalizing d rows with
  | nil => simp at hnan
  | cons r rest ih =>
    by_cases htime : r.identity.modified = .nan
    · have hnull : (db.insert (.ofRecord r)).Refuses d .noModificationTime
          (Shows place · (.pending before (some rows))) := hlawful.insertNull hprepared htime
      obtain ⟨d', hrun, hd'⟩ := hnull
      exact Statement.Refuses.bind ⟨d', hrun, _, hd'⟩ _
    · have hrest : ∃ r ∈ rest, r.identity.modified = .nan := by
        obtain ⟨r', hr', hnan⟩ := hnan
        rcases List.mem_cons.1 hr' with rfl | hr'
        · exact absurd hnan htime
        · exact ⟨r', hr', hnan⟩
      exact (hlawful.insert hprepared htime).refuses fun d' hd' => ih hrest d' hd'

/-- A batch with a file that has no time is refused, and no row of it stays. -/
theorem record_refused {records : List History.Record}
    (hshows : Shows place d (.settled (some rows)))
    (hnan : ∃ r ∈ records, r.identity.modified = .nan) :
    (db.record records).Refuses d .noModificationTime
      (Shows place · (.settled (some rows))) := by
  refine (hlawful.begin hshows).refuses fun d₁ hbegun => ?_
  refine Statement.Refuses.bind ?_ _
  refine ((hlawful.insertAll_refused hbegun hnan).bind _).tryCatch fun d₂ hpending => ?_
  obtain ⟨now, hpending⟩ := hpending
  exact ((hlawful.rollback hpending).tryCatch _).refuses fun d₃ hsettled => ⟨d₃, rfl, hsettled⟩

end Database.IsLawful

end PhotoIntake
