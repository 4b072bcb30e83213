import PhotoIntake.Proofs.FileTree.Actions

/-!
# A file that was written is read back

Writing changes the tree, and links may lead anywhere in it, so that a path could mean something
else after it was written to.  It does not: on the way to a file a path walks through folders and
along links, and the only entry that has changed is the one at its end.

* `FilePut.placeOf_eq`: a path that leads to the written file still leads there.
* `contentOf_writeFile` and `textOf?_writeFile`: what was written in full is what the file holds.
* `inFolders`: what is done after the folders around a path were created, and `putFile`, writing the
  file that it means.
-/

namespace PhotoIntake

namespace FileTree

open PhotoIntake.Path (Component)

variable {t t' : FileTree} {k l : Location} {cs : List Component}

/-! ## The end of a way -/

/-- Where a step has come to, or leads on from. -/
def Step.location : Step → Location
  | .arrived place => place.location
  | .detour start _ => start

/-- If links at the end are followed, no way ends in one. -/
theorem not_link_of_arrived {s : String} {place : Place}
    (h : advance t true l [.name s] = .ok (.arrived place)) (target : Path) :
    t.get? (l ++ [s]) ≠ some (.link target) := by
  intro hlink
  rw [advance_name_link (advance_name_cases h).1 hlink] at h
  simp at h

/-- A way that does not begin below a link does not come to the link or below it. -/
theorem not_below_link {target : Path} (hlink : t.get? l = some (.link target)) (hk : ¬ l <+: k)
    {step : Step} (h : advance t true k cs = .ok step) : ¬ l <+: step.location := by
  induction cs generalizing k with
  | nil =>
    obtain rfl := Except.ok.inj h
    exact hk
  | cons c rest ih =>
    cases c with
    | root =>
      refine ih ?_ h
      rw [List.prefix_nil]
      rintro rfl
      simp at hlink
    | current => exact ih hk h
    | parent => exact ih (fun hpre => hk (hpre.trans (List.dropLast_prefix k))) h
    | name s =>
      have hnext (hne : t.get? (k ++ [s]) ≠ some (.link target)) : ¬ l <+: k ++ [s] := by
        rw [List.prefix_concat_iff]
        rintro (rfl | hpre)
        · exact hne hlink
        · exact hk hpre
      obtain ⟨-, ⟨hget, hrest⟩ | ⟨rfl, -, rfl⟩ | ⟨target', -, rfl⟩⟩ := advance_name_cases h
      · exact ih (hnext (by simp [hget])) hrest
      · exact hnext (not_link_of_arrived h target)
      · exact hk

/-! ## After a file was put in a place -/

/-- The step with what stands there in another tree. -/
def Step.seenIn (t : FileTree) : Step → Step
  | .arrived place => .arrived ⟨place.location, t.get? place.location⟩
  | .detour start way => .detour start way

namespace FilePut

/-- A way is the same after a file was put in a place that is no folder, unless there was a link in
its place and the way went along it. -/
theorem advance_eq (h : FilePut l t t') (hl : t.get? l ≠ some .folder) {step : Step}
    (hstep : advance t true k cs = .ok step) :
    advance t' true k cs = .ok (step.seenIn t') ∨
      ∃ s target start way, t.get? l = some (.link target) ∧ l = start ++ [s] ∧
        step = .detour start way := by
  induction cs generalizing k with
  | nil =>
    obtain rfl := Except.ok.inj hstep
    exact Or.inl rfl
  | cons c rest ih =>
    cases c with
    | root => exact ih hstep
    | current => exact ih hstep
    | parent => exact ih hstep
    | name s =>
      obtain ⟨hshort, ⟨hget, hrest⟩ | ⟨rfl, -, rfl⟩ | ⟨target, hlink, rfl⟩⟩ :=
        advance_name_cases hstep
      · rw [advance_name_folder hshort (h.get?_folder hl hget)]
        exact ih hrest
      · refine Or.inl (advance_name_last hshort fun target => ?_)
        by_cases hk : k ++ [s] = l
        · obtain ⟨content, modified, hfile⟩ := h.file
          simp [hk, hfile]
        · rw [h.get?_of_ne _ hk]
          exact not_link_of_arrived hstep target
      · by_cases hk : k ++ [s] = l
        · exact Or.inr ⟨s, target, k, _, hk ▸ hlink, hk.symm, rfl⟩
        · exact Or.inl (advance_name_link hshort (h.get?_of_ne _ hk ▸ hlink))

theorem follow_eq_of_arrived (h : FilePut l t t') (hl : t.get? l ≠ some .folder) (n : Nat)
    {place : Place} (hstep : advance t true k cs = .ok (.arrived place))
    (hplace : place.location = l) :
    follow t' true n (advance t' true k cs) = .ok ⟨l, t'.get? l⟩ := by
  rcases h.advance_eq hl hstep with hsame | ⟨s, target, start, way, -, -, heq⟩
  · rw [hsame, Step.seenIn, hplace, follow]
  · exact absurd heq (by simp)

/-- A way that ends where the file was put still ends there.  It cannot have gone along a link in
that place, since it would not have come back to it. -/
theorem follow_eq (h : FilePut l t t') (hl : t.get? l ≠ some .folder) {n : Nat} {place : Place}
    (hfollow : follow t true n (advance t true k cs) = .ok place) (hplace : place.location = l) :
    follow t' true n (advance t' true k cs) = .ok ⟨l, t'.get? l⟩ := by
  induction n generalizing k cs with
  | zero =>
    cases hstep : advance t true k cs with
    | error e => simp [hstep, follow] at hfollow
    | ok step =>
      cases step with
      | arrived place' =>
        obtain rfl : place' = place := by simpa [hstep, follow] using hfollow
        exact h.follow_eq_of_arrived hl 0 hstep hplace
      | detour start way => simp [hstep, follow] at hfollow
  | succ n ih =>
    cases hstep : advance t true k cs with
    | error e => simp [hstep, follow] at hfollow
    | ok step =>
      cases step with
      | arrived place' =>
        obtain rfl : place' = place := by simpa [hstep, follow] using hfollow
        exact h.follow_eq_of_arrived hl (n + 1) hstep hplace
      | detour start way =>
        rw [hstep, follow] at hfollow
        rcases h.advance_eq hl hstep with hsame | ⟨s, target, start', way', hlink, hsnoc, heq⟩
        · rw [hsame, Step.seenIn, follow]
          exact ih hfollow
        · obtain ⟨rfl, rfl⟩ : start = start' ∧ way = way' := by simpa using heq
          have hstart : ¬ l <+: start := fun hpre => by
            have hlength := hpre.length_le
            rw [hsnoc, List.length_append, List.length_singleton] at hlength
            omega
          have haway : ¬ l <+: place.location :=
            follow_induction (P := fun step => ¬ l <+: step.location)
              (fun _ hstep => not_below_link hlink hstart hstep)
              (fun _ _ hstart _ hstep => not_below_link hlink hstart hstep) hfollow
          exact absurd (hplace ▸ List.prefix_refl l) haway

/-- A path that leads to where the file was put still leads there, and to the file. -/
theorem placeOf_eq (h : FilePut l t t') {p : Path} {entry : Option Entry}
    (hentry : entry ≠ some .folder) (hplace : t.placeOf true p = .ok ⟨l, entry⟩) :
    t'.placeOf true p = .ok ⟨l, t'.get? l⟩ := by
  have hl : t.get? l ≠ some .folder := entry_of_placeOf hplace ▸ hentry
  obtain ⟨hall, hfollow⟩ := placeOf_ok hplace
  rw [hall, h.working]
  exact h.follow_eq hl hfollow rfl

end FilePut

end FileTree

namespace FileAction

open FileTree

variable {t t' : FileTree} {p : Path} {content : ByteArray}

/-! ## Writing a file -/

/-- A file that can be opened is not the root. -/
theorem ne_nil_of_opened {l : Location} {entry : Option Entry}
    (hplace : t.locate true p = .ok ⟨l, entry⟩) (hentry : entry ≠ some .folder) : l ≠ [] := by
  rw [locate, Bool.true_or] at hplace
  rintro rfl
  exact hentry (entry_of_placeOf hplace)

/-- A path is read from the file that it opened for writing, as far as that was filled. -/
theorem contentOf_fill {l : Location} {entry : Option Entry} {part : ByteArray}
    {modified modified' : Int} (hplace : t.locate true p = .ok ⟨l, entry⟩)
    (hdemands : p.demandsFolder = false) (hentry : entry ≠ some .folder)
    (hfile : ((t.set l (.file ByteArray.empty modified)).fill l content).1.get? l =
      some (.file part modified')) :
    ((t.set l (.file ByteArray.empty modified)).fill l content).1.contentOf p = .ok part := by
  have hput : FilePut l t ((t.set l (.file ByteArray.empty modified)).fill l content).1 :=
    filePut_fill (ne_nil_of_opened hplace hentry) _ content
  rw [locate, Bool.true_or] at hplace
  have hplace' := hput.placeOf_eq hentry hplace
  rw [contentOf, locate, Bool.true_or, hplace', hfile]
  simp [hdemands]

/-- Bytes that were written to a path, if there were any, are the content of what it means. -/
theorem contentOf_writeFile (hcontent : content.isEmpty = false)
    (h : (writeFile p content).runOn t = (.ok (), t')) : t'.contentOf p = .ok content := by
  rw [writeFile, runOn_bind] at h
  rcases openEmpty_cases p t with ⟨e, hopen⟩ | ⟨l, -, hopen⟩ |
    ⟨l, entry, hplace, hdemands, hentry, hopen⟩
  · simp [hopen] at h
  · rw [hopen] at h
    simp [writeAll, hcontent] at h
  · let opened := t.set l (.file ByteArray.empty t.clock)
    simp only [hopen, runOn_writeAll_some] at h
    obtain ⟨hcomplete, rfl⟩ := Prod.mk.inj h
    have hfull : (opened.fill l content).2 = true := by
      by_contra hfull
      simp [opened, hfull] at hcomplete
    obtain ⟨modified, hfile⟩ := get?_fill_complete (ne_nil_of_opened hplace hentry) hfull
    exact contentOf_fill hplace hdemands hentry hfile

theorem textOf?_of_contentOf {s : String} (h : t.contentOf p = .ok s.toUTF8) :
    t.textOf? p = some s := by
  rw [textOf?, h]
  exact dif_pos s.isValidUTF8

/-- A text that was written to a path, if it is not empty, is the text of what it means. -/
theorem textOf?_writeFile {s : String} (hs : s.toUTF8.isEmpty = false)
    (h : (writeFile p s.toUTF8).runOn t = (.ok (), t')) : t'.textOf? p = some s :=
  textOf?_of_contentOf (contentOf_writeFile hs h)

/-! ## Putting a file in its place -/

/-- Create the folders around a path, and then act on it. -/
def inFolders {α : Type} (p : Path) (action : FileAction α) : FileAction α := do
  match p.parentComponents? with
  | some outer => createFolders (Path.ofComponents outer)
  | none => pure ()
  action

/-- If the folders cannot be created, nothing else is done. -/
theorem inFolders_cases {α : Type} (p : Path) (action : FileAction α) (t : FileTree) :
    ∃ t₁, FoldersAdded (fun _ => True) t t₁ ∧
      ((∃ e, (inFolders p action).runOn t = (.error e, t₁)) ∨
        (inFolders p action).runOn t = action.runOn t₁) := by
  unfold inFolders
  cases p.parentComponents? with
  | none => exact ⟨t, FoldersAdded.refl _ t, Or.inr rfl⟩
  | some outer =>
    have hadded := createFolders_adds (Path.ofComponents outer) t
    rw [treeAfter] at hadded
    simp only [runOn_bind]
    rcases hrun : (createFolders (Path.ofComponents outer)).runOn t with ⟨e | _, t₁⟩
    all_goals rw [hrun] at hadded
    · exact ⟨t₁, hadded, Or.inl ⟨e, rfl⟩⟩
    · exact ⟨t₁, hadded, Or.inr rfl⟩

/-- Create the folders around a path and make the file that it means hold the bytes. -/
def putFile (p : Path) (content : ByteArray) : FileAction Unit :=
  inFolders p (writeFile p content)

/-- A text that was put in its place is read from there. -/
theorem textOf?_putFile {s : String} (hs : s.toUTF8.isEmpty = false)
    (h : (putFile p s.toUTF8).runOn t = (.ok (), t')) : t'.textOf? p = some s := by
  obtain ⟨t₁, -, ⟨e, hrun⟩ | hrun⟩ := inFolders_cases p (writeFile p s.toUTF8) t
  · cases (Prod.mk.inj (hrun.symm.trans h)).1
  · exact textOf?_writeFile hs (hrun.symm.trans h)

end FileAction

end PhotoIntake
