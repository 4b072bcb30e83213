import PhotoIntake.Console.Templates
import PhotoIntake.Proofs.Naming.Reloading

/-!
# Editing templates by commands

A command loads the templates of the user, edits them and saves them.  Since what was saved is
loaded as it is, it makes no difference whether edits are made one after the other in memory or each
by a command of its own.

* `runOn_bind` and `runOn_onFiles` run a command step by step.
* `run_cases`: what a command does is what its edit does in memory, and the file follows.
* `saving_unobservable`: saved templates are loaded as they are, and commands do what edits do.
-/

namespace PhotoIntake.Console

open Naming (Collection Edit Purpose Shop)

variable {ω : Type}

/-! ## Running a command step by step -/

namespace CommandAction

variable {α β ε : Type}

theorem runOn_bind (action : CommandAction ω α) (f : α → CommandAction ω β) (d : Desk ω) :
    (action >>= f).runOn d =
      match action.runOn d with
      | (.ok a, d') => (f a).runOn d'
      | (.error e, d') => (.error e, d') := by
  simp only [runOn, ExceptT.run, bind, ExceptT.bind, ExceptT.mk, StateT.run, StateT.bind,
    ExceptT.bindCont]
  rcases action d with ⟨r | r, d'⟩ <;> rfl

/-- What is done with the files is done to the files of the desk. -/
theorem runOn_onFiles (f : FileTree → Except ε α × FileTree) (tell : ε → CommandError)
    (d : Desk ω) : (onFiles f tell).runOn d =
      ((f d.files).1.mapError tell, { d with files := (f d.files).2 }) := by
  have hfiles : (files : CommandAction ω FileTree).runOn d = (.ok d.files, d) := rfl
  unfold onFiles
  rw [runOn_bind, hfiles]
  rcases hf : f d.files with ⟨e | a, t⟩
  all_goals
    simp only [hf]
    rfl

end CommandAction

/-! ## Commands and edits in memory -/

namespace TemplateRequest

/-- The collection in memory after the edit that is asked for, or why it is refused. -/
def applyTo (r : TemplateRequest) (c : Collection) : Except CommandError Collection :=
  match r.edit with
  | .ok e => (e.apply c).mapError .intake
  | .error e => .error e

/-- Make edits on a collection in memory, one after the other: what becomes of each, and the
collection after them.  An edit that is refused changes nothing. -/
def applyAll : List TemplateRequest → Collection → List (Except CommandError Unit) × Collection
  | [], c => ([], c)
  | r :: rest, c =>
    let (result, c) := match r.applyTo c with
      | .ok c' => (.ok (), c')
      | .error e => (.error e, c)
    let (results, last) := applyAll rest c
    (result :: results, last)

/-- Run commands on a file, one after the other: what becomes of each, and the desk after them. -/
def runAll (file : Path) : List TemplateRequest → Desk ω → List (Except CommandError Unit) × Desk ω
  | [], d => ([], d)
  | r :: rest, d =>
    let (result, d) := (r.run file).runOn d
    let (results, last) := runAll file rest d
    (result :: results, last)

/-- The command could not write its file. -/
def CannotSave (result : Except CommandError Unit) : Prop :=
  ∃ path cause, result = .error (.intake (.templatesSave path cause))

/-- What an edit in memory leaves can be used, and belongs to the same file. -/
theorem usable_applyTo {r : TemplateRequest} {c c' : Collection} (h : c.Usable)
    (happly : r.applyTo c = .ok c') : c'.Usable ∧ c'.path = c.path := by
  unfold applyTo at happly
  split at happly
  · next e _ =>
    cases hedit : e.apply c with
    | error cause => simp [hedit, Except.mapError] at happly
    | ok edited =>
      obtain rfl : edited = c' := by simpa [hedit, Except.mapError] using happly
      exact ⟨Edit.usable hedit h, Edit.path_apply hedit⟩
  · cases happly

/-- A command is refused as its edit is on the collection of the file, and then leaves everything as
it is; else it saves the collection after the edit. -/
theorem run_cases (r : TemplateRequest) (file : Path) (d : Desk ω) :
    (∃ e, r.applyTo (.load file d.files) = .error e ∧ (r.run file).runOn d = (.error e, d)) ∨
    ∃ c', r.applyTo (.load file d.files) = .ok c' ∧
      ((r.run file).runOn d).2.files = (c'.save d.files).2 ∧
      ((c'.save d.files).1 = .ok () ∧ ((r.run file).runOn d).1 = .ok () ∨
        CannotSave ((r.run file).runOn d).1) := by
  unfold applyTo run
  cases hedit : r.edit with
  | error e => exact Or.inl ⟨e, rfl, rfl⟩
  | ok edit =>
    simp only [pure_bind, CommandAction.runOn_bind, CommandAction.runOn_onFiles]
    cases happly : edit.apply (.load file d.files) with
    | error e =>
      refine Or.inl ⟨.intake e, rfl, ?_⟩
      rw [Edit.applyToFile, happly]
      rfl
    | ok c' =>
      refine Or.inr ⟨c', rfl, ?_⟩
      have hfile : edit.applyToFile file d.files = c'.save d.files := by
        rw [Edit.applyToFile, happly]
      rw [hfile]
      rcases hsave : c'.save d.files with ⟨e | _, t⟩
      · obtain ⟨cause, rfl, -⟩ := Collection.save_failed hsave
        exact ⟨rfl, Or.inr ⟨c'.path, cause, rfl⟩⟩
      · exact ⟨rfl, Or.inl ⟨rfl, rfl⟩⟩

theorem applyAll_cons (r : TemplateRequest) (rest : List TemplateRequest) (c : Collection) :
    (∀ e, r.applyTo c = .error e →
      applyAll (r :: rest) c = (.error e :: (applyAll rest c).1, (applyAll rest c).2)) ∧
    ∀ c', r.applyTo c = .ok c' →
      applyAll (r :: rest) c = (.ok () :: (applyAll rest c').1, (applyAll rest c').2) := by
  constructor <;> intro result happly <;> rw [applyAll, happly]

/-- As long as the file can be written, commands do to it what their edits do in memory. -/
theorem runAll_eq (file : Path) (rs : List TemplateRequest) (d : Desk ω)
    (hwritten : ∀ result ∈ (runAll file rs d).1, ¬ CannotSave result) :
    ((runAll file rs d).1, Collection.load file (runAll file rs d).2.files) =
      applyAll rs (.load file d.files) := by
  induction rs generalizing d with
  | nil => rfl
  | cons r rest ih =>
    have hrest := ih ((r.run file).runOn d).2 fun result hresult =>
      hwritten result (List.mem_cons_of_mem _ hresult)
    have hnow : ¬ CannotSave ((r.run file).runOn d).1 := hwritten _ List.mem_cons_self
    obtain ⟨hrefused, hdone⟩ := applyAll_cons r rest (.load file d.files)
    rcases run_cases r file d with ⟨e, happly, hrun⟩ | ⟨c', happly, hfiles, ⟨hsave, hok⟩ | hfailed⟩
    · rw [hrun] at hrest
      rw [hrefused e happly, ← hrest, runAll, hrun]
    · obtain ⟨husable, hpath⟩ := usable_applyTo (Collection.usable_load file d.files) happly
      have hload : Collection.load file ((r.run file).runOn d).2.files = c' := by
        rw [hfiles, ← Collection.path_load file d.files, ← hpath]
        exact Collection.load_save husable (Prod.ext hsave rfl)
      rw [hload] at hrest
      rw [hdone c' happly, ← hrest, ← hok, runAll]
    · exact absurd hfailed hnow

/-- A collection after any history that is saved, to whatever files, is loaded as it is; in
particular the lists of both purposes are the same.  And commands that load, edit and save, as long
as they can write the file, succeed or are refused just as the same edits in memory, one after the
other, and leave the same templates. -/
theorem saving_unobservable (file : Path) (files : FileTree) (history : List Shop.Happening)
    (d : Desk ω) (rs : List TemplateRequest) :
    let c := (Shop.afterAll file files history).collection
    (∀ t, (c.save t).1 = .ok () → Collection.load file (c.save t).2 = c ∧
      ∀ purpose, (Collection.load file (c.save t).2).list purpose = c.list purpose) ∧
    ((∀ result ∈ (runAll file rs d).1, ¬ CannotSave result) →
      let inMemory := applyAll rs (.load file d.files)
      let written := Collection.load file (runAll file rs d).2.files
      (runAll file rs d).1 = inMemory.1 ∧ written = inMemory.2 ∧
        ∀ purpose, written.list purpose = inMemory.2.list purpose) := by
  intro c
  obtain ⟨husable, hpath⟩ := Shop.afterAll_spec file files history
  refine ⟨fun t hsave => ?_, fun hwritten => ?_⟩
  · have hload : Collection.load file (c.save t).2 = c := by
      rw [← hpath]
      exact Collection.load_save husable (Prod.ext hsave rfl)
    exact ⟨hload, fun purpose => by rw [hload]⟩
  · obtain ⟨hresults, hload⟩ := Prod.mk.inj (runAll_eq file rs d hwritten)
    exact ⟨hresults, hload, fun purpose => congrArg (·.list purpose) hload⟩

/-- A template that is not there is renamed, and then it is added. -/
def sampleRequests : List TemplateRequest :=
  [.rename .image "B" "Third", .add .image "B" none "lowercase" ["by ", "Year"]]

/-- A desk without files. -/
def sampleDesk : Desk Unit :=
  ⟨.empty [], (), [], []⟩

/-- A collection with one template of free text. -/
def sampleCollection : Collection :=
  (Shop.afterAll ⟨"t.json"⟩ (.empty [])
    [.edit (.add .image (.ofTitles "A" "First" ["Year "] .lower))]).collection

/-- The collection is saved and loaded.  Of two commands the first one is refused, as it is in
memory, and the second one is carried out. -/
theorem saving_unobservable_sample :
    let saved := sampleCollection.save (.empty [])
    let commands := runAll ⟨"t.json"⟩ sampleRequests sampleDesk
    let inMemory := applyAll sampleRequests (.load ⟨"t.json"⟩ sampleDesk.files)
    saved.1 = .ok () ∧ Collection.load ⟨"t.json"⟩ saved.2 = sampleCollection ∧
      commands.1 = [.error (.intake (.unknownTemplate "B")), .ok ()] ∧
      commands.1 = inMemory.1 ∧ Collection.load ⟨"t.json"⟩ commands.2.files = inMemory.2 := by
  have hsave : (sampleCollection.save (.empty [])).1 = .ok () := by decide +kernel
  have hresults : (runAll ⟨"t.json"⟩ sampleRequests sampleDesk).1 =
      [.error (.intake (.unknownTemplate "B")), .ok ()] := by decide +kernel
  have hwritten : ∀ result ∈ (runAll ⟨"t.json"⟩ sampleRequests sampleDesk).1,
      ¬ CannotSave result := by
    rw [hresults]
    simp [CannotSave]
  obtain ⟨hloaded, hcommands⟩ :=
    saving_unobservable ⟨"t.json"⟩ (.empty []) _ sampleDesk sampleRequests
  dsimp only at hcommands ⊢
  obtain ⟨hsame, hwhole, -⟩ := hcommands hwritten
  exact ⟨hsave, (hloaded _ hsave).1, hresults, hsame, hwhole⟩

end TemplateRequest

end PhotoIntake.Console
