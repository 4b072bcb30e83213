import PhotoIntake.Naming.Collection
import PhotoIntake.Proofs.FileTree.FailedWrite
import PhotoIntake.Proofs.Json.Prefix
import PhotoIntake.Proofs.Naming.RoundTrip
import PhotoIntake.Proofs.Sequence.Saving
import PhotoIntake.Proofs.Text.Lines

/-!
# State that could not be saved

The counters and the templates of the user are each kept in a file that is written in place.  When
that fails, nothing is lost in memory.  In the file nothing is lost either, unless there was no room
to write all of it: then the file is torn, and loading finds a first run, never a part of the state.

* `read?_of_torn`: a torn file of an object is not read.
* `Sequences.save_failed` and `Collection.save_failed`: what a save that fails leaves.
* `SaveFailed`: what is left and loaded, by the step that failed.
* `failed_save`: all of it for both files.
* `roomless`: saved state where there is no room left, which the next save loses.
-/

namespace PhotoIntake

open FileAction (Torn openInPlace putFile)
open FileTree (FilesKept)
open Sequence (Durable)

variable {t t' : FileTree}

/-! ## Torn files -/

/-- A torn file of an object is not read. -/
theorem read?_of_torn {path : Path} {members : List (String × Json)}
    (hproper : (Json.object members).isProper = true)
    (h : Torn path (Json.writeIndented (.object members)).toUTF8 t) :
    (t.textOf? path).bind Json.read? = none := by
  obtain ⟨n, hn, hcontent⟩ := h
  rw [FileTree.textOf?, hcontent]
  cases hpart : String.fromUTF8? ((Json.writeIndented (.object members)).toUTF8.extract 0 n) with
  | none => simp only [hpart, Option.bind_none]
  | some part =>
    obtain ⟨hinitial, hcut⟩ := Text.prefix_of_fromUTF8? hpart
    simp only [hpart, Option.bind_some]
    exact Json.read?_of_cut hproper hinitial (hcut hn)

/-- What is read from a file that is kept is what was read before. -/
theorem textOf?_of_kept (h : FilesKept t t') {path : Path} {content : ByteArray}
    (hcontent : t.contentOf path = .ok content) : t'.textOf? path = t.textOf? path := by
  rw [FileTree.textOf?, FileTree.textOf?, hcontent, h path content hcontent]

/-! ## Counters -/

namespace Sequence.Durable

theorem read?_of_torn {path : Path} {d : Durable} (h : Torn path d.fileText.toUTF8 t) :
    read? path t = none := by
  rw [read?, PhotoIntake.read?_of_torn rfl h, Option.bind_none]

end Sequence.Durable

/-- A save of counters that fails changes nothing in memory, and there is something to be saved. -/
theorem Sequences.save_failed {s s' : Sequences} {e : IntakeError}
    (h : s.save t = (.error e, s', t')) : s' = s ∧ s.isDirty = true ∧ ∃ d cause,
      s.durable = some d ∧ e = .sequencesSave s.path cause ∧
      (putFile s.path d.fileText.toUTF8).runOn t = (.error cause, t') := by
  unfold save at h
  split at h
  · next d hdurable hdirty =>
    split at h
    · simp at h
    · next cause files hwrite =>
      obtain ⟨rfl, rfl, rfl⟩ : e = .sequencesSave s.path cause ∧ s' = s ∧ t' = files := by
        simpa [eq_comm] using h
      exact ⟨rfl, hdirty, d, cause, hdurable, rfl, hwrite⟩
  · simp at h

/-! ## Templates -/

namespace Naming

theorem Shelf.isProper_toJson (shelf : Shelf) : shelf.toJson.isProper = true := by
  induction shelf with
  | nil => rfl
  | cons t shelf ih =>
    show (Json.object ((t.key, t.toJson) :: _)).isProper = true
    rw [Json.isProper_object_cons, t.codes.isProper, Bool.true_and]
    exact ih

namespace Collection

/-- The text of the file that keeps the templates of the user. -/
def fileText (c : Collection) : String :=
  Json.writeIndented c.toJson

theorem isProper_toJson (c : Collection) : c.toJson.isProper = true := by
  simp [toJson, Shelf.isProper_toJson]

theorem isEmpty_fileText (c : Collection) : c.fileText.toUTF8.isEmpty = false :=
  Json.isEmpty_writeIndented c.isProper_toJson

theorem write_eq (c : Collection) : c.write = putFile c.path c.fileText.toUTF8 :=
  rfl

theorem load_of_torn {path : Path} {c : Collection} (h : Torn path c.fileText.toUTF8 t) :
    load path t = ⟨path, [], []⟩ := by
  rw [load, read?_of_torn c.isProper_toJson h]
  rfl

theorem save_of_write_error {c : Collection} {cause : FileError}
    (hwrite : c.write.runOn t = (.error cause, t')) :
    c.save t = (.error (.templatesSave c.path cause), t') := by
  rw [save, hwrite]

theorem save_failed {c : Collection} {e : IntakeError} (h : c.save t = (.error e, t')) :
    ∃ cause, e = .templatesSave c.path cause ∧
      (putFile c.path c.fileText.toUTF8).runOn t = (.error cause, t') := by
  unfold save at h
  split at h
  · simp at h
  · next cause files hwrite =>
    obtain ⟨rfl, rfl⟩ : e = .templatesSave c.path cause ∧ t' = files := by
      simpa [eq_comm] using h
    exact ⟨cause, rfl, hwrite⟩

end Collection

end Naming

/-! ## Saves that fail -/

/-- What a save that failed leaves of the file at a path and of what is loaded from there, told by
the step that failed.  Before a file was opened, and on the full device, all files are kept, and
what could be read is loaded as before.  A file that was opened holds as much of the text as there
was room for, which is not all of it, and nothing of that is loaded. -/
def SaveFailed {α : Type} (p : Path) (text : String) (load : FileTree → α) (blank : α)
    (t : FileTree) (cause : FileError) (t' : FileTree) : Prop :=
  let kept := FilesKept t t' ∧ ∀ content, t.contentOf p = .ok content → load t' = load t
  match (openInPlace p).runOn t with
  | (.error unopened, _) => cause = unopened ∧ kept
  | (.ok none, _) => cause = .noRoom ∧ kept
  | (.ok (some _), opened) => cause = .noRoom ∧ load t' = blank ∧
      ∃ room < text.toUTF8.size, opened.room = some room ∧
        t'.contentOf p = .ok (text.toUTF8.extract 0 room)

/-- So it is where the text of the file decides what is loaded, and torn files are not read. -/
theorem saveFailed_of_putFile {α : Type} {p : Path} {text : String} {load : FileTree → α}
    {blank : α} {cause : FileError} (hload : ∀ u, u.textOf? p = t.textOf? p → load u = load t)
    (hblank : ∀ u, Torn p text.toUTF8 u → load u = blank)
    (h : (putFile p text.toUTF8).runOn t = (.error cause, t')) :
    SaveFailed p text load blank t cause t' := by
  have hfailed := FileAction.putFile_failed h
  unfold SaveFailed
  have hkept (hfiles : FilesKept t t') :
      FilesKept t t' ∧ ∀ content, t.contentOf p = .ok content → load t' = load t :=
    ⟨hfiles, fun _ hcontent => hload t' (textOf?_of_kept hfiles hcontent)⟩
  rcases hopen : (openInPlace p).runOn t with ⟨unopened | _ | l, opened⟩
  all_goals rw [hopen] at hfailed
  · obtain ⟨hcause, -, hfiles⟩ := hfailed
    exact ⟨hcause, hkept hfiles⟩
  · obtain ⟨hcause, -, hfiles⟩ := hfailed
    exact ⟨hcause, hkept hfiles⟩
  · obtain ⟨hcause, room, hshort, hroom, hcontent⟩ := hfailed
    exact ⟨hcause, hblank t' ⟨room, hshort, hcontent⟩, room, hshort, hroom, hcontent⟩

/-- The sequences that are loaded from a file on a day. -/
def loadedSequences (p : Path) (t : FileTree) (today : Calendar.Date) : Sequences :=
  (Sequences.ofFile p).load t today

/-- A save that fails changes nothing in memory, and counters stay marked.  Before a file was opened
all files are kept, so that the counters or the templates that were saved before are still loaded.
A file that was opened is torn for want of room, and then a first run is loaded, or no template of
the user. -/
theorem failed_save (t t' : FileTree) (e : IntakeError) :
    (∀ s s' : Sequences, s.save t = (.error e, s', t') → s' = s ∧ s.isDirty = true ∧
      ∃ d cause, s.durable = some d ∧ e = .sequencesSave s.path cause ∧
        SaveFailed s.path d.fileText (loadedSequences s.path)
          (fun today => { Sequences.ofFile s.path with durable := some (.first today) })
          t cause t') ∧
    ∀ c : Naming.Collection, c.save t = (.error e, t') →
      ∃ cause, e = .templatesSave c.path cause ∧
        SaveFailed c.path c.fileText (Naming.Collection.load c.path) ⟨c.path, [], []⟩
          t cause t' := by
  constructor
  · intro s s' h
    obtain ⟨hsame, hdirty, d, cause, hdurable, he, hwrite⟩ := Sequences.save_failed h
    refine ⟨hsame, hdirty, d, cause, hdurable, he, saveFailed_of_putFile ?_ ?_ hwrite⟩
    · intro u htext
      funext today
      simp only [loadedSequences, Sequences.load, Sequences.ofFile, Durable.read?, htext]
    · intro u htorn
      funext today
      simp only [loadedSequences, Sequences.load, Sequences.ofFile, Durable.read?_of_torn htorn,
        Option.getD_none]
  · intro c h
    obtain ⟨cause, he, hwrite⟩ := Naming.Collection.save_failed h
    refine ⟨cause, he, saveFailed_of_putFile ?_ ?_ hwrite⟩
    · intro u htext
      simp only [Naming.Collection.load, htext]
    · exact fun u => Naming.Collection.load_of_torn

/-- A folder stands where the file of the counters should be, and there is no room for another
template.  Nothing is opened for the counters.  The file of the templates is opened and left empty,
and what it held is not loaded again. -/
theorem failed_save_sample :
    let t : FileTree :=
      { entries := [(["s.json"], .folder), (["t.json"], .file "T".toUTF8 0)]
        working := []
        room := some 0
        clock := 1 }
    let s : Sequences := ⟨⟨"s.json"⟩, some ⟨⟨.epoch, 8⟩, 43⟩, 2, true⟩
    let c : Naming.Collection := ⟨⟨"t.json"⟩, [⟨"MINE", "Mine", [.text "x"], .original, false⟩], []⟩
    (s.save t).1 = .error (.sequencesSave ⟨"s.json"⟩ .isFolder) ∧ (s.save t).2.1 = s ∧
      (s.save t).2.2.contentOf ⟨"t.json"⟩ = .ok "T".toUTF8 ∧
    (c.save t).1 = .error (.templatesSave ⟨"t.json"⟩ .noRoom) ∧
      (c.save t).2.contentOf ⟨"t.json"⟩ = .ok ByteArray.empty ∧
      Naming.Collection.load ⟨"t.json"⟩ (c.save t).2 = ⟨⟨"t.json"⟩, [], []⟩ := by
  intro t s c
  have hcounters : (s.save t).1 = .error (.sequencesSave ⟨"s.json"⟩ .isFolder) := by
    decide +kernel
  have htemplates : (c.save t).1 = .error (.templatesSave ⟨"t.json"⟩ .noRoom) := by
    decide +kernel
  obtain ⟨hsame, -, d, cause, -, -, hleft⟩ :=
    (failed_save t (s.save t).2.2 _).1 s (s.save t).2.1 (Prod.ext hcounters rfl)
  obtain ⟨cause', -, hleft'⟩ := (failed_save t (c.save t).2 _).2 c (Prod.ext htemplates rfl)
  have hunopened : ((openInPlace s.path).runOn t).1 = .error .isFolder := by decide +kernel
  have hopened : ((openInPlace c.path).runOn t).1 = .ok (some ["t.json"]) := by decide +kernel
  have hroom : ((openInPlace c.path).runOn t).2.room = some 0 := by decide +kernel
  unfold SaveFailed at hleft hleft'
  rw [show (openInPlace s.path).runOn t = (_, _) from Prod.ext hunopened rfl] at hleft
  rw [show (openInPlace c.path).runOn t = (_, _) from Prod.ext hopened rfl] at hleft'
  obtain ⟨-, hkept, -⟩ := hleft
  obtain ⟨-, hblank, room, -, hroom', hcontent⟩ := hleft'
  obtain rfl : 0 = room := Option.some.inj (hroom.symm.trans hroom')
  rw [ByteArray.extract_same] at hcontent
  exact ⟨hcounters, hsame, hkept ⟨"t.json"⟩ _ rfl, htemplates, hcontent, hblank⟩

/-! ## No room at all -/

/-- Counters and templates that were saved before, where there is no room left by now. -/
def roomless (d : Durable) (c : Naming.Collection) : FileTree :=
  { entries := [(["s.json"], .file d.fileText.toUTF8 0), (["t.json"], .file c.fileText.toUTF8 0)]
    working := []
    room := some 0
    clock := 1 }

variable (d : Durable) (c : Naming.Collection)

theorem textOf?_roomless : (roomless d c).textOf? ⟨"s.json"⟩ = some d.fileText ∧
    (roomless d c).textOf? ⟨"t.json"⟩ = some c.fileText :=
  ⟨FileAction.textOf?_of_contentOf rfl, FileAction.textOf?_of_contentOf rfl⟩

/-- Whatever is saved there is torn. -/
theorem putFile_roomless {path : Path} (hpath : path = ⟨"s.json"⟩ ∨ path = ⟨"t.json"⟩)
    {content : ByteArray} (hcontent : content.isEmpty = false) :
    ∃ t', (putFile path content).runOn (roomless d c) = (.error .noRoom, t') ∧
      Torn path content t' := by
  have hshort : 0 < content.size := Nat.pos_of_ne_zero fun hzero => by
    simp [ByteArray.isEmpty, hzero] at hcontent
  rcases hpath with rfl | rfl
  · exact FileAction.writeFile_short rfl (by decide) rfl hshort
  · exact FileAction.writeFile_short rfl (by decide) rfl hshort

theorem save_counters_roomless (s : Sequences) {d' : Durable} (hpath : s.path = ⟨"s.json"⟩)
    (hdurable : s.durable = some d') (hdirty : s.isDirty = true) :
    ∃ t', s.save (roomless d c) = (.error (.sequencesSave s.path .noRoom), s, t') ∧
      Torn s.path d'.fileText.toUTF8 t' := by
  obtain ⟨t', hwrite, htorn⟩ :=
    putFile_roomless d c (Or.inl hpath) (Durable.isEmpty_fileText d')
  rw [← Durable.write_eq] at hwrite
  exact ⟨t', Sequences.save_of_write_error hdurable hdirty hwrite, htorn⟩

theorem save_templates_roomless (c' : Naming.Collection) (hpath : c'.path = ⟨"t.json"⟩) :
    ∃ t', c'.save (roomless d c) = (.error (.templatesSave c'.path .noRoom), t') ∧
      Torn c'.path c'.fileText.toUTF8 t' := by
  obtain ⟨t', hwrite, htorn⟩ := putFile_roomless d c (Or.inr hpath)
    (Naming.Collection.isEmpty_fileText c')
  rw [← Naming.Collection.write_eq] at hwrite
  exact ⟨t', Naming.Collection.save_of_write_error hwrite, htorn⟩

/-- Both saves fail for want of room.  The stored number was 42 and is 1 when it is loaded again;
there was a template of the user and there is none. -/
theorem failed_save_loses_saved :
    let mine : Naming.Template := ⟨"MINE", "Mine", [.text "x"], .original, false⟩
    let c : Naming.Collection := ⟨⟨"t.json"⟩, [mine], []⟩
    let s : Sequences := ⟨⟨"s.json"⟩, some ⟨⟨.epoch, 8⟩, 43⟩, 2, true⟩
    let t := roomless ⟨⟨.epoch, 7⟩, 42⟩ c
    ((s.save t).1 = .error (.sequencesSave ⟨"s.json"⟩ .noRoom) ∧
      ((Sequences.ofFile ⟨"s.json"⟩).load t .epoch).durable = some ⟨⟨.epoch, 7⟩, 42⟩ ∧
      ((Sequences.ofFile ⟨"s.json"⟩).load (s.save t).2.2 .epoch).durable =
        some ⟨⟨.epoch, 0⟩, 1⟩) ∧
    (c.save t).1 = .error (.templatesSave ⟨"t.json"⟩ .noRoom) ∧
      (Naming.Collection.load ⟨"t.json"⟩ t).image.map (·.key) = ["MINE"] ∧
      (Naming.Collection.load ⟨"t.json"⟩ (c.save t).2).image.map (·.key) = [] := by
  intro mine c s t
  obtain ⟨hcounters, htemplates⟩ := textOf?_roomless ⟨⟨.epoch, 7⟩, 42⟩ c
  constructor
  · obtain ⟨t', hsave, htorn⟩ :=
      save_counters_roomless ⟨⟨.epoch, 7⟩, 42⟩ c s rfl rfl rfl
    refine ⟨congrArg (·.1) hsave, ?_, ?_⟩
    · rw [Sequences.load, Sequences.ofFile, Durable.read?, hcounters, Option.bind_some,
        Durable.ofJson?_fileText ⟨by decide, by decide⟩, Option.getD_some]
    · rw [hsave, Sequences.load, Sequences.ofFile, Durable.read?_of_torn htorn]
      rfl
  · obtain ⟨t', hsave, htorn⟩ :=
      save_templates_roomless ⟨⟨.epoch, 7⟩, 42⟩ c c rfl
    refine ⟨congrArg (·.1) hsave, ?_, ?_⟩
    · rw [Naming.Collection.load, htemplates, Option.bind_some, Naming.Collection.fileText,
        Json.read?_writeIndented c.isProper_toJson]
      decide +kernel
    · rw [hsave, Naming.Collection.load_of_torn htorn]
      rfl

end PhotoIntake
