import PhotoIntake.Proofs.History.Database

/-!
# Stores in a database

A store in a database answers by the records since the last reset, whatever the database is, as long
as it does what its documentation says.

* `DatabaseStore.Agrees`: the table holds what became of the records.
* `Agrees.step` and `Agrees.answers_eq`: so it is after one operation and after any number, and all
  answers are right.
* `Shelf.isLawful`: a database of lists does what is asked of one.
* `Database.answers_by_records`: the store gives the right answers, in memory and in a file.
-/

namespace PhotoIntake

open History (Answer Columns Follows Log Represents answers)

/-! ## Answers -/

/-- A store in a database, with the file that it is in, if it is in one. -/
structure DatabaseStore (σ : Type) where
  path : Option Path
  database : σ
  files : FileTree

namespace DatabaseStore

variable {σ α : Type}

/-- What a statement answers, and the store after it. -/
def answer (s : DatabaseStore σ) (statement : Statement σ α) (tell : α → Answer) :
    Answer × DatabaseStore σ :=
  match statement.runOn s.database with
  | (.ok a, d) => (tell a, { s with database := d })
  | (.error e, d) => (.refused (.history e), { s with database := d })

/-- What a store answers, and the store after it.  What was in memory is lost when it is closed. -/
def perform (db : Database σ) (s : DatabaseStore σ) : History.Operation → Answer × DatabaseStore σ
  | .record records => s.answer (db.record records) .recorded
  | .lookup id => s.answer (db.lookup id) .known
  | .count => s.answer db.countRows .counted
  | .reset => s.answer db.reset fun () => .done
  | .reopen =>
    match s.path with
    | none => s.answer db.openInMemory fun () => .done
    | some p =>
      match db.openFile p s.files s.database with
      | (.ok (), files, database) => (.done, { s with files, database })
      | (.error e, files, database) => (.refused e, { s with files, database })

variable {db : Database σ} {Shows : Option Path → σ → View → Prop}
  {Keeps : Path → σ → Option (Multiset Columns) → Prop} {s : DatabaseStore σ} {log : Log}

theorem answer_of_gives {statement : Statement σ α} {a : α} {P : σ → Prop}
    (h : statement.Gives s.database a P) (tell : α → Answer) :
    ∃ d, s.answer statement tell = (tell a, { s with database := d }) ∧ P d := by
  obtain ⟨d, hrun, hd⟩ := h
  exact ⟨d, by simp only [answer, hrun], hd⟩

/-- The rows of the table are what became of the records, and the folder of the file is there. -/
structure Agrees (Shows : Option Path → σ → View → Prop) (place : Option Path)
    (s : DatabaseStore σ) (log : Log) : Prop where
  path : s.path = place
  folder : ∀ p ∈ place, s.files.FolderThere p
  table : ∃ rows h, Shows place s.database (.settled (some rows)) ∧ Represents rows h ∧
    h.Follows log

/-- One operation: the answer is the right one, and the table holds what becomes of the records. -/
theorem Agrees.step {place : Option Path} (hagrees : s.Agrees Shows place log)
    (hlawful : db.IsLawful Shows Keeps) {operation : History.Operation}
    (hregular : operation.IsRegular) (hopen : operation = .reopen → place ≠ none) :
    (s.perform db operation).1 = (log.perform operation).1 ∧
      (s.perform db operation).2.Agrees Shows place (log.perform operation).2 := by
  obtain ⟨hpath, hfolder, rows, h, hshows, hrows, hlog⟩ := hagrees
  cases operation with
  | record records =>
    obtain ⟨h', hrecord, hlater⟩ := hlog.record fun r hr => (hregular r hr).1
    obtain ⟨d, hanswer, rows', hrows', hd⟩ :=
      answer_of_gives (hlawful.record hshows hrows hrecord hregular) Answer.recorded
    rw [perform, hanswer]
    exact ⟨rfl, hpath, hfolder, rows', h', hd, hrows', hlater⟩
  | lookup id =>
    obtain ⟨d, hanswer, hd⟩ :=
      answer_of_gives (hlawful.lookup hshows hrows hlog.nodup_keys hregular) Answer.known
    rw [perform, hanswer, hlog.lookup_eq]
    exact ⟨rfl, hpath, hfolder, rows, h, hd, hrows, hlog⟩
  | count =>
    obtain ⟨d, hanswer, hd⟩ := answer_of_gives (hlawful.countRows hshows) Answer.counted
    rw [perform, hanswer, hrows.card_eq, hlog.count_eq]
    exact ⟨rfl, hpath, hfolder, rows, h, hd, hrows, hlog⟩
  | reset =>
    obtain ⟨d, hanswer, hd⟩ := answer_of_gives (hlawful.reset hshows) fun () => Answer.done
    rw [perform, hanswer]
    exact ⟨rfl, hpath, hfolder, 0, .empty, hd, .empty, .empty⟩
  | reopen =>
    obtain ⟨p, rfl⟩ := Option.ne_none_iff_exists'.1 (hopen rfl)
    have hthere := hfolder p rfl
    obtain ⟨d, hopened, hd⟩ := hlawful.openFile (hlawful.durable hshows)
      (HistoryStore.createFolderAround_of_folderThere hthere) hthere
    simp only [perform, hpath, hopened]
    exact ⟨rfl, rfl, hfolder, rows, h, hd, hrows, hlog⟩

/-- Any number of operations: all answers are right. -/
theorem Agrees.answers_eq {place : Option Path} (hagrees : s.Agrees Shows place log)
    (hlawful : db.IsLawful Shows Keeps) {operations : List History.Operation}
    (hregular : ∀ r ∈ operations, r.IsRegular) (hopen : .reopen ∈ operations → place ≠ none) :
    answers (perform db) s operations = answers Log.perform log operations := by
  refine History.answers_eq (R := fun s log => s.Agrees Shows place log)
    (P := fun operation => operation.IsRegular ∧ (operation = .reopen → place ≠ none))
    (fun s log operation hs h => hs.step hlawful h.1 h.2) hagrees fun r hr => ⟨hregular r hr, ?_⟩
  rintro rfl
  exact hopen hr

/-- A new store in memory has a table without rows. -/
theorem exists_agrees_inMemory (hlawful : db.IsLawful Shows Keeps) (d : σ) (t : FileTree) :
    ∃ d', db.openInMemory.runOn d = (.ok (), d') ∧ Agrees Shows none ⟨none, d', t⟩ [] := by
  obtain ⟨d', hrun, hd'⟩ := hlawful.openInMemory d
  exact ⟨d', hrun, rfl, by simp, 0, .empty, hd', .empty, .empty⟩

/-- So has a store in a file where no table was. -/
theorem exists_agrees_file (hlawful : db.IsLawful Shows Keeps) {p : Path} {d : σ} {t t' : FileTree}
    (hkeeps : Keeps p d none)
    (hfolder : (HistoryStore.createFolderAround p).runOn t = (.ok (), t')) :
    ∃ d', db.openFile p t d = (.ok (), t', d') ∧ Agrees Shows (some p) ⟨some p, d', t'⟩ [] := by
  have hthere := (HistoryStore.createFolderAround_cases hfolder).2.2
  obtain ⟨d', hrun, hd'⟩ := hlawful.openFile hkeeps hfolder hthere
  refine ⟨d', hrun, rfl, fun q hq => ?_, 0, .empty, hd', .empty, .empty⟩
  rwa [← Option.some.inj hq]

end DatabaseStore

/-! ## A database of lists -/

/-- A database of lists: the open one, the tables in files, the table as it is seen, and within a
transaction the table before it. -/
structure Shelf where
  place : Option Path
  kept : Path → Option (List Columns)
  now : Option (List Columns)
  before : Option (Option (List Columns))

namespace Shelf

/-- The table is seen, and kept in the file that is open. -/
def settle (s : Shelf) (now : Option (List Columns)) : Shelf :=
  { s with
    kept := match s.place with
      | some p => Function.update s.kept p now
      | none => s.kept
    now
    before := none }

/-- The table with a row in place of the one with its key. -/
def put (rows : List Columns) (c : Columns) : List Columns :=
  c :: rows.filter fun old => ¬ old.IsOf c.name c.size c.modified

/-- The statements on lists. -/
def database : Database Shelf where
  connect p _ := modify fun s => ⟨some p, s.kept, s.kept p, none⟩
  connectInMemory := modify fun s => ⟨none, s.kept, none, none⟩
  createTable := modify fun s => s.settle (some (s.now.getD []))
  createIndex := pure ()
  dropTable := modify fun s => s.settle none
  vacuum := pure ()
  begin := modify fun s => { s with before := some s.now }
  commit := modify fun s => s.settle s.now
  rollback := modify fun s => s.settle (s.before.getD none)
  prepareInsert := pure ()
  insert c := do
    if c.modified = .nan then throw .noModificationTime
    modify fun s => { s with now := some (put (s.now.getD []) c) }
  select name size modified := do
    let found := ((← get).now.getD []).find? fun c => c.IsOf name size modified
    return found.map fun c => (c.target, c.time)
  count := do
    return Int64.ofNat ((← get).now.getD []).length

/-- The rows of a table in any order. -/
def rowsOf (table : Option (List Columns)) : Option (Multiset Columns) :=
  table.map Multiset.ofList

/-- What is seen of the lists. -/
def Shows (place : Option Path) (s : Shelf) : View → Prop
  | .settled table =>
    s.place = place ∧ rowsOf s.now = table ∧ s.before = none ∧ ∀ p ∈ place, s.kept p = s.now
  | .pending before now =>
    s.place = place ∧ rowsOf s.now = now ∧ s.before.map rowsOf = some before

/-- What is in a file. -/
def Keeps (p : Path) (s : Shelf) (table : Option (Multiset Columns)) : Prop :=
  rowsOf (s.kept p) = table

variable {s : Shelf} {place : Option Path} {now : Option (List Columns)}

theorem shows_settle (hplace : s.place = place) (now : Option (List Columns)) :
    Shows place (s.settle now) (.settled (rowsOf now)) := by
  refine ⟨hplace, rfl, rfl, fun p hp => ?_⟩
  rw [settle, hplace, Option.mem_def.1 hp]
  exact Function.update_self ..

/-- A row takes the place of those with its key. -/
theorem coe_put (rows : List Columns) (c : Columns) :
    (put rows c : Multiset Columns) =
      c ::ₘ (rows : Multiset Columns).filter fun old => ¬ old.IsOf c.name c.size c.modified := by
  rw [Multiset.filter_coe, Multiset.cons_coe]
  rfl

/-- Where there is a table, it is a list. -/
theorem exists_rows {rows : Multiset Columns} (h : rowsOf now = some rows) :
    ∃ list : List Columns, now = some list ∧ rows = list := by
  obtain ⟨list, hnow, hlist⟩ := Option.map_eq_some_iff.1 h
  exact ⟨list, hnow, hlist.symm⟩

theorem rowsOf_getD (now : Option (List Columns)) :
    rowsOf (some (now.getD [])) = some ((rowsOf now).getD 0) := by
  cases now <;> rfl

/-- The lists do what is documented of a database. -/
theorem isLawful : database.IsLawful Shows Keeps where
  connect hkeeps _ := ⟨_, rfl, rfl, hkeeps, rfl, fun q hq => by rw [← Option.some.inj hq]⟩
  connectInMemory s := ⟨_, rfl, rfl, rfl, rfl, by simp⟩
  durable := by
    rintro p s table ⟨-, hnow, -, hkept⟩
    rw [Keeps, hkept p rfl, hnow]
  createTable := by
    rintro place s table ⟨hplace, rfl, -⟩
    rw [← rowsOf_getD]
    exact ⟨_, rfl, shows_settle hplace (some (s.now.getD []))⟩
  createIndex hshows := ⟨_, rfl, hshows⟩
  dropTable hshows := ⟨_, rfl, shows_settle hshows.1 none⟩
  vacuum hshows := ⟨_, rfl, hshows⟩
  begin := by
    rintro place s table ⟨hplace, hnow, -⟩
    exact ⟨_, rfl, hplace, hnow, congrArg some hnow⟩
  commit := by
    rintro place s before now ⟨hplace, rfl, -⟩
    exact ⟨_, rfl, shows_settle hplace s.now⟩
  rollback := by
    rintro place s before now ⟨hplace, -, hbefore⟩
    obtain ⟨old, hold, rfl⟩ := Option.map_eq_some_iff.1 hbefore
    refine ⟨s.settle (s.before.getD none), rfl, ?_⟩
    rw [hold]
    exact shows_settle hplace old
  prepareInsert hshows := ⟨_, rfl, hshows⟩
  insert := by
    rintro place s before rows c ⟨hplace, hnow, hbefore⟩ htime
    obtain ⟨list, hlist, rfl⟩ := exists_rows hnow
    refine ⟨{ s with now := some (put list c) }, ?_, hplace, ?_, hbefore⟩
    · simp only [database, if_neg htime]
      show (Except.ok (), { s with now := some (put (s.now.getD []) c) }) = _
      rw [hlist, Option.getD_some]
    · exact congrArg some (coe_put list c)
  insertNull := by
    rintro place s before rows c hshows htime
    refine ⟨s, ?_, hshows⟩
    simp only [database, if_pos htime]
    rfl
  select := by
    rintro place s rows name size modified ⟨hplace, hnow, hrest⟩
    obtain ⟨list, hlist, rfl⟩ := exists_rows hnow
    let found := list.find? fun c => c.IsOf name size modified
    refine ⟨found.map fun c => (c.target, c.time), ⟨s, ?_, hplace, hnow, hrest⟩, ?_, ?_⟩
    · show (Except.ok (((s.now.getD []).find? fun c => decide (c.IsOf name size modified)).map
        fun c => (c.target, c.time)), s) = _
      rw [hlist, Option.getD_some]
    · intro hnone c hc
      simpa using List.find?_eq_none.1 (Option.map_eq_none_iff.1 hnone) c hc
    · intro target time hsome
      obtain ⟨c, hc, hcolumns⟩ := Option.map_eq_some_iff.1 hsome
      obtain ⟨rfl, rfl⟩ := Prod.mk.inj hcolumns
      exact ⟨c, List.mem_of_find?_eq_some hc, by simpa using List.find?_some hc, rfl, rfl⟩
  count := by
    rintro place s rows hshows
    obtain ⟨list, hlist, rfl⟩ := exists_rows hshows.2.1
    refine ⟨s, ?_, hshows⟩
    show (Except.ok (Int64.ofNat (s.now.getD []).length), s) = _
    rw [hlist]
    rfl

end Shelf

/-! ## All of it -/

/-- Whatever is asked, the answers are those that the records since the last reset give: a file is
known by the last record of its name, size and time, with the time of the download to the fraction
of a second, and the count is that of the different files.  This holds of a store in memory as long
as it is not closed, and of a store in a file without a table, for any database that does what is
documented of it. -/
theorem Database.answers_by_records {σ : Type} {db : Database σ}
    {Shows : Option Path → σ → View → Prop} {Keeps : Path → σ → Option (Multiset Columns) → Prop}
    (hlawful : db.IsLawful Shows Keeps) {operations : List History.Operation}
    (hregular : ∀ r ∈ operations, r.IsRegular) :
    (.reopen ∉ operations → ∀ d t, ∃ d', db.openInMemory.runOn d = (.ok (), d') ∧
      answers (DatabaseStore.perform db) ⟨none, d', t⟩ operations =
        answers Log.perform [] operations) ∧
    ∀ p d t t', Keeps p d none → (HistoryStore.createFolderAround p).runOn t = (.ok (), t') →
      ∃ d', db.openFile p t d = (.ok (), t', d') ∧
        answers (DatabaseStore.perform db) ⟨some p, d', t'⟩ operations =
          answers Log.perform [] operations := by
  refine ⟨fun hopen d t => ?_, fun p d t t' hkeeps hfolder => ?_⟩
  · obtain ⟨d', hrun, hagrees⟩ := DatabaseStore.exists_agrees_inMemory hlawful d t
    exact ⟨d', hrun, hagrees.answers_eq hlawful hregular fun hmem => absurd hmem hopen⟩
  · obtain ⟨d', hrun, hagrees⟩ := DatabaseStore.exists_agrees_file hlawful hkeeps hfolder
    exact ⟨d', hrun, hagrees.answers_eq hlawful hregular fun _ => Option.some_ne_none p⟩

/-- A size that a table keeps as a negative number, and a leap second in a year with a sign. -/
theorem Database.answers_by_records_sample :
    let great : FileIdentity := ⟨"a.jpg", 2 ^ 63 + 5, 1.5⟩
    let small : FileIdentity := ⟨"a.jpg", 5, 1.5⟩
    let leap : Calendar.DateTime :=
      ⟨⟨-4, 2, 29, by decide⟩, ⟨23, 59, 59, 1500000000, by decide⟩⟩
    let operations : List History.Operation :=
      [.record [⟨great, "old/a.jpg", .epoch⟩, ⟨great, "new/a.jpg", leap⟩], .reopen,
        .lookup great, .lookup small, .count]
    let nothing : Shelf := ⟨none, fun _ => none, none, none⟩
    Shelf.database.IsLawful Shelf.Shows Shelf.Keeps ∧ (∀ r ∈ operations, r.IsRegular) ∧
      ∃ d t, Shelf.database.openFile ⟨"s.db"⟩ (.empty ["home"]) nothing = (.ok (), t, d) ∧
        answers (DatabaseStore.perform Shelf.database) ⟨some ⟨"s.db"⟩, d, t⟩ operations =
          [.recorded 2, .done, .known (some ⟨"new/a.jpg", some leap⟩), .known none,
            .counted 1] := by
  intro great small leap operations nothing
  have hregular : ∀ r ∈ operations, r.IsRegular := by
    have htime : great.modified ≠ .nan := by decide +kernel
    simp [operations, History.Operation.IsRegular, htime, great, small, UInt64.size]
  have hsame : great.Same great := ⟨rfl, rfl, by decide +kernel⟩
  have hother : ¬ great.Same small := fun h => absurd h.2.1 (by decide)
  have hone : (History.distinct [great, great]).length = 1 := by decide +kernel
  obtain ⟨d, hopen, hanswers⟩ := (Database.answers_by_records Shelf.isLawful hregular).2 ⟨"s.db"⟩
    nothing (.empty ["home"]) (.empty ["home"]) rfl rfl
  refine ⟨Shelf.isLawful, hregular, d, _, hopen, hanswers.trans ?_⟩
  simp [operations, answers, Log.perform, History.lastOf?, History.Record.download, hsame, hother,
    hone]

end PhotoIntake
