import PhotoIntake.Proofs.FileTree.ReadBack

/-!
# A file that could not be written

A file is written in place: its folder is created, it is opened, which makes it empty, and then it
is filled.  A failure before it is opened costs nothing.  A failure after that costs the content
that the file had; it holds the first bytes of what was to be written.

* `FilesKept`: every file that could be read holds what it held.
* `FoldersAdded.filesKept`: added folders stand in no file's way, with links on the way or not.
* `KeepsRoom`: only bytes take room, so an action that makes folders leaves it as it was.
* `putFile_eq`: writing a file is `openInPlace`, and then filling what was opened.
* `putFile_failed`: what is left of a file that could not be written, by what opening it came to.
-/

namespace PhotoIntake

namespace FileTree

open PhotoIntake.Path (Component)

variable {t t' t'' : FileTree} {k l : Location} {cs : List Component}

/-! ## Files that are kept -/

/-- Every file that could be read before holds what it held. -/
def FilesKept (t t' : FileTree) : Prop :=
  ∀ p content, t.contentOf p = .ok content → t'.contentOf p = .ok content

theorem FilesKept.refl (t : FileTree) : FilesKept t t :=
  fun _ _ h => h

namespace FoldersAdded

variable {P : Location → Prop}

/-- A way is the same with more folders; where nothing stood at its end, there may be a folder. -/
theorem advance_eq (h : FoldersAdded P t t') {step : Step}
    (hstep : advance t true k cs = .ok step) : advance t' true k cs = .ok (step.seenIn t') := by
  induction cs generalizing k with
  | nil =>
    obtain rfl := Except.ok.inj hstep
    rfl
  | cons c rest ih =>
    cases c with
    | root => exact ih hstep
    | current => exact ih hstep
    | parent => exact ih hstep
    | name s =>
      obtain ⟨hshort, ⟨hget, hrest⟩ | ⟨rfl, -, rfl⟩ | ⟨target, hlink, rfl⟩⟩ :=
        advance_name_cases hstep
      · have hfolder := (h.get?_of_isSome (Option.isSome_iff_exists.2 ⟨_, hget⟩)).trans hget
        rw [advance_name_folder hshort hfolder]
        exact ih hrest
      · refine advance_name_last hshort fun target hlink' => ?_
        rcases h.get? (k ++ [s]) with hsame | ⟨-, -, hfolder⟩
        · exact not_link_of_arrived hstep target (hsame ▸ hlink')
        · simp [hfolder] at hlink'
      · have hlink' := (h.get?_of_isSome (Option.isSome_iff_exists.2 ⟨_, hlink⟩)).trans hlink
        exact advance_name_link hshort hlink'

/-- So a way that ends somewhere ends there, along as many links. -/
theorem follow_eq (h : FoldersAdded P t t') {n : Nat} {place : Place}
    (hfollow : follow t true n (advance t true k cs) = .ok place) :
    follow t' true n (advance t' true k cs) = .ok ⟨place.location, t'.get? place.location⟩ := by
  induction n generalizing k cs with
  | zero =>
    cases hstep : advance t true k cs with
    | error e => simp [hstep, follow] at hfollow
    | ok step =>
      cases step with
      | arrived place' =>
        obtain rfl : place' = place := by simpa [hstep, follow] using hfollow
        rw [h.advance_eq hstep, Step.seenIn, follow]
      | detour start way => simp [hstep, follow] at hfollow
  | succ n ih =>
    cases hstep : advance t true k cs with
    | error e => simp [hstep, follow] at hfollow
    | ok step =>
      rw [h.advance_eq hstep]
      cases step with
      | arrived place' =>
        obtain rfl : place' = place := by simpa [hstep, follow] using hfollow
        rw [Step.seenIn, follow]
      | detour start way =>
        rw [hstep, follow] at hfollow
        rw [Step.seenIn, follow]
        exact ih hfollow

/-- A path that leads somewhere still leads there. -/
theorem placeOf_true (h : FoldersAdded P t t') {p : Path} {place : Place}
    (hplace : t.placeOf true p = .ok place) :
    t'.placeOf true p = .ok ⟨place.location, t'.get? place.location⟩ := by
  obtain ⟨hall, hfollow⟩ := placeOf_ok hplace
  rw [hall, h.working, h.follow_eq hfollow]

/-- What a path leads to it still leads to. -/
theorem placeOf_eq (h : FoldersAdded P t t') {p : Path} {e : Entry}
    (hplace : t.placeOf true p = .ok ⟨l, some e⟩) : t'.placeOf true p = .ok ⟨l, some e⟩ := by
  have hget : t.get? l = some e := (entry_of_placeOf hplace).symm
  rw [h.placeOf_true hplace, h.get?_of_isSome (Option.isSome_iff_exists.2 ⟨_, hget⟩), hget]

theorem filesKept (h : FoldersAdded P t t') : FilesKept t t' := by
  intro p content hcontent
  have hlocate (t : FileTree) : t.locate true p = t.placeOf true p := by rw [locate, Bool.true_or]
  unfold contentOf at hcontent ⊢
  rw [hlocate] at hcontent ⊢
  cases hplace : t.placeOf true p with
  | error e => simp [hplace] at hcontent
  | ok place =>
    obtain ⟨l, entry⟩ := place
    cases entry with
    | none => simp [hplace] at hcontent
    | some e =>
      rw [hplace] at hcontent
      rwa [h.placeOf_eq hplace]

end FoldersAdded

/-- What can be read is there, if the path may mean a file. -/
theorem isThere_of_contentOf {p : Path} {content : ByteArray} (h : t.contentOf p = .ok content)
    (hdemands : p.demandsFolder = false) : t.isThere p = true := by
  rw [contentOf] at h
  rw [isThere, entry?]
  cases hplace : t.locate true p with
  | error e => simp [hplace] at h
  | ok place =>
    obtain ⟨l, entry⟩ := place
    cases entry with
    | none => simp [hplace] at h
    | some e => simp [hdemands]

/-- What does not fit has not enough room. -/
theorem exists_room_of_incomplete {content : ByteArray} (h : (t.fill l content).2 = false) :
    ∃ room, t.room = some room ∧ room < content.size := by
  unfold fill at h
  cases hroom : t.room with
  | none => simp [hroom] at h
  | some room =>
    simp only [hroom, decide_eq_false_iff_not, Nat.not_le] at h
    exact ⟨room, rfl, h⟩

/-- A file that was not filled to its end holds the bytes that there was room for. -/
theorem get?_fill_short (h : l ≠ []) {content : ByteArray} {room : Nat} (hroom : t.room = some room)
    (hshort : room < content.size) : ∃ modified,
      (t.fill l content).1.get? l = some (.file (content.extract 0 room) modified) := by
  refine ⟨t.clock, ?_⟩
  simp only [fill, hroom, Nat.min_eq_left (Nat.le_of_lt hshort)]
  exact get?_set_self h

/-- Nothing is always written in full. -/
theorem fill_empty_complete (t : FileTree) (l : Location) :
    (t.fill l ByteArray.empty).2 = true := by
  unfold fill
  split
  · rfl
  · rename_i room _
    exact decide_eq_true (Nat.zero_le room)

end FileTree

namespace FileAction

open FileTree

section Room

/-! ## The room of actions -/

variable {α β : Type}

/-- The action takes no room, whether it fails or not. -/
def KeepsRoom (action : FileAction α) : Prop :=
  ∀ t, (action.treeAfter t).room = t.room

namespace KeepsRoom

theorem pure (a : α) : KeepsRoom (Pure.pure a : FileAction α) :=
  fun _ => rfl

theorem throw (e : FileError) : KeepsRoom (MonadExcept.throw e : FileAction α) :=
  fun _ => rfl

theorem look (f : FileTree → Except FileError α) : KeepsRoom (FileAction.look f) := by
  intro t
  rw [treeAfter, runOn_look]

theorem bind {action : FileAction α} {f : α → FileAction β} (h : KeepsRoom action)
    (hf : ∀ a, KeepsRoom (f a)) : KeepsRoom (action >>= f) := by
  intro t
  have hroom := h t
  rw [treeAfter] at hroom
  rw [treeAfter, runOn_bind]
  rcases hrun : action.runOn t with ⟨e | a, t₁⟩
  all_goals rw [hrun] at hroom
  · exact hroom
  · exact (hf a t₁).trans hroom

theorem tryCatch {action : FileAction α} {handler : FileError → FileAction α}
    (h : KeepsRoom action) (hf : ∀ e, KeepsRoom (handler e)) :
    KeepsRoom (MonadExcept.tryCatch action handler) := by
  intro t
  have hroom := h t
  rw [treeAfter] at hroom
  rw [treeAfter, runOn_tryCatch]
  rcases hrun : action.runOn t with ⟨e | a, t₁⟩
  all_goals rw [hrun] at hroom
  · exact (hf e t₁).trans hroom
  · exact hroom

end KeepsRoom

theorem keepsRoom_createFolder (p : Path) : KeepsRoom (createFolder p) := by
  refine .bind (.look _) fun place => ?_
  cases place.entry with
  | some _ => exact .throw _
  | none => exact fun _ => rfl

theorem keepsRoom_ensureFolder (p : Path) : KeepsRoom (ensureFolder p) := by
  refine .tryCatch (keepsRoom_createFolder p) fun e => ?_
  intro t
  rw [treeAfter, runOn_bind, runOn_get]
  dsimp only
  rw [runOn_ite]
  split <;> rfl

theorem keepsRoom_ensureFoldersUp (cs : List Path.Component) : KeepsRoom (ensureFoldersUp cs) := by
  induction cs with
  | nil => exact .pure _
  | cons c outer ih =>
    refine .tryCatch (keepsRoom_ensureFolder _) fun e => ?_
    cases e with
    | missing => exact .bind ih fun _ => keepsRoom_ensureFolder _
    | _ => exact .throw _

theorem keepsRoom_createFolders (p : Path) : KeepsRoom (createFolders p) :=
  keepsRoom_ensureFoldersUp _

end Room

variable {t t' : FileTree} {p : Path} {content : ByteArray} {e : FileError}

/-! ## Files that could not be written -/

/-- What the path means holds the first of the bytes, and some are missing. -/
def Torn (p : Path) (content : ByteArray) (t : FileTree) : Prop :=
  ∃ n < content.size, t.contentOf p = .ok (content.extract 0 n)

/-- A file that was opened and then not filled to its end is read as far as there was room. -/
theorem contentOf_of_short {l : Location} {entry : Option Entry} {modified : Int} {room : Nat}
    (hplace : t.locate true p = .ok ⟨l, entry⟩) (hdemands : p.demandsFolder = false)
    (hentry : entry ≠ some .folder) (hroom : t.room = some room) (hshort : room < content.size) :
    ((t.set l (.file ByteArray.empty modified)).fill l content).1.contentOf p =
      .ok (content.extract 0 room) := by
  obtain ⟨modified', hfile⟩ := get?_fill_short (t := t.set l (.file ByteArray.empty modified))
    (ne_nil_of_opened hplace hentry) hroom hshort
  exact contentOf_fill hplace hdemands hentry hfile

theorem torn_of_incomplete {l : Location} {entry : Option Entry} {modified : Int}
    (hplace : t.locate true p = .ok ⟨l, entry⟩) (hdemands : p.demandsFolder = false)
    (hentry : entry ≠ some .folder)
    (hincomplete : ((t.set l (.file ByteArray.empty modified)).fill l content).2 = false) :
    Torn p content ((t.set l (.file ByteArray.empty modified)).fill l content).1 := by
  obtain ⟨room, hroom, hshort⟩ := exists_room_of_incomplete hincomplete
  exact ⟨room, hshort, contentOf_of_short hplace hdemands hentry hroom hshort⟩

/-- A file is opened before it shows that there is not enough room: whatever it held is lost. -/
theorem writeFile_short {l : Location} {old : ByteArray} {modified : Int} {room : Nat}
    (hplace : t.locate true p = .ok ⟨l, some (.file old modified)⟩)
    (hdemands : p.demandsFolder = false) (hroom : t.room = some room)
    (hshort : room < content.size) :
    ∃ t', (writeFile p content).runOn t = (.error .noRoom, t') ∧ Torn p content t' := by
  have hopen : (openEmpty p).runOn t = (.ok (some l), t.set l (.file ByteArray.empty t.clock)) := by
    rw [openEmpty, runOn_bind, runOn_look, hplace]
    simp [hdemands]
    rfl
  have hincomplete : ((t.set l (.file ByteArray.empty t.clock)).fill l content).2 = false := by
    have hroom' : (t.set l (.file ByteArray.empty t.clock)).room = some room := hroom
    simp [fill, hroom', hshort]
  refine ⟨_, ?_, torn_of_incomplete hplace hdemands (by simp) hincomplete⟩
  simp only [writeFile, runOn_bind, hopen]
  rw [runOn_writeAll_some, hincomplete, if_neg Bool.false_ne_true]

/-! ## The step that failed -/

/-- Create the folders around a path and open the file that it means. -/
def openInPlace (p : Path) : FileAction (Option Location) :=
  inFolders p (openEmpty p)

/-- A file is put in its place by opening it there and writing it. -/
theorem putFile_eq (p : Path) (content : ByteArray) :
    putFile p content = openInPlace p >>= fun opened => writeAll opened content := by
  unfold putFile openInPlace inFolders writeFile
  cases p.parentComponents? with
  | none => rfl
  | some outer => exact (bind_assoc _ _ _).symm

/-- Folders are added, and then opening fails, or meets the full device, or puts an empty file where
the path leads. -/
theorem openInPlace_cases (p : Path) (t : FileTree) :
    ∃ t₁, FoldersAdded (fun _ => True) t t₁ ∧
      ((∃ e, (openInPlace p).runOn t = (.error e, t₁)) ∨
        (openInPlace p).runOn t = (.ok none, t₁) ∨
        ∃ l entry, t₁.locate true p = .ok ⟨l, entry⟩ ∧ p.demandsFolder = false ∧
          entry ≠ some .folder ∧ (openInPlace p).runOn t =
            (.ok (some l), t₁.set l (.file ByteArray.empty t₁.clock))) := by
  unfold openInPlace
  obtain ⟨t₁, hadded, hfailed | hrun⟩ := inFolders_cases p (openEmpty p) t
  · exact ⟨t₁, hadded, Or.inl hfailed⟩
  · refine ⟨t₁, hadded, ?_⟩
    rw [hrun]
    rcases openEmpty_cases p t₁ with hfailed | ⟨l, -, hdevice⟩ | hfile
    · exact Or.inl hfailed
    · exact Or.inr (Or.inl hdevice)
    · exact Or.inr (Or.inr hfile)

/-- What a failure to put bytes into a file leaves, told by the step that failed.  Before a file is
opened, and where it is the full device, all files are kept.  An opened file holds the bytes that
there was room for, and some are missing. -/
theorem putFile_failed (h : (putFile p content).runOn t = (.error e, t')) :
    match (openInPlace p).runOn t with
    | (.error cause, opened) => e = cause ∧ t' = opened ∧ FilesKept t t'
    | (.ok none, opened) => e = .noRoom ∧ t' = opened ∧ FilesKept t t'
    | (.ok (some _), opened) => e = .noRoom ∧ ∃ room < content.size, opened.room = some room ∧
        t'.contentOf p = .ok (content.extract 0 room) := by
  rw [putFile_eq, runOn_bind] at h
  obtain ⟨t₁, hadded, ⟨cause, hrun⟩ | hrun | ⟨l, entry, hplace, hdemands, hentry, hrun⟩⟩ :=
    openInPlace_cases p t
  all_goals simp only [hrun] at h ⊢
  · obtain ⟨hcause, rfl⟩ := Prod.mk.inj h
    exact ⟨(Except.error.inj hcause).symm, rfl, hadded.filesKept⟩
  · have htree := treeAfter_writeAll_none content t₁
    rw [treeAfter_of_runOn h] at htree
    rw [writeAll] at h
    subst htree
    split at h
    · cases (Prod.mk.inj h).1
    · exact ⟨(Except.error.inj (Prod.mk.inj h).1).symm, rfl, hadded.filesKept⟩
  · rw [runOn_writeAll_some] at h
    obtain ⟨hresult, rfl⟩ := Prod.mk.inj h
    cases hcomplete : ((t₁.set l (.file ByteArray.empty t₁.clock)).fill l content).2 with
    | true => simp [hcomplete] at hresult
    | false =>
      obtain rfl : FileError.noRoom = e := by simpa [hcomplete] using hresult
      obtain ⟨room, hroom, hshort⟩ := exists_room_of_incomplete hcomplete
      exact ⟨rfl, room, hshort, hroom, contentOf_of_short hplace hdemands hentry hroom hshort⟩

end FileAction

end PhotoIntake
