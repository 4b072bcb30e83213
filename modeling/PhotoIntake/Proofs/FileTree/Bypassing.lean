import PhotoIntake.Proofs.FileTree.FailedWrite
import PhotoIntake.Proofs.FileTree.Descent

/-!
# Trees that differ in one file

Two trees may differ in what stands at one location, where one has a file and the other has another
file or nothing.  A path that does not lead over this location cannot tell them apart.  A path that
does may end there, and then it leads there in both.

* `LeadsOver`: a way comes by a location, with links on the way or not.
* `SameBut` relates the trees; the second one has a file wherever the first one has.
* `SameBut.placeOf_eq`: a path that does not lead over the location leads to the same place.
* `SameBut.placeOf_true`: a path that leads somewhere leads there in the second tree.
-/

namespace PhotoIntake.FileTree

open PhotoIntake.Path (Component)

variable {t t' : FileTree} {k l : Location} {cs : List Component} {b : Bool}

/-! ## Ways over a location -/

/-- One of the names of a way leads to the location, if all links on the way are followed. -/
inductive LeadsOver (t : FileTree) (l : Location) : Location → List Component → Prop where
  | here {k : Location} {s : String} {rest : List Component} (h : k ++ [s] = l) :
    LeadsOver t l k (.name s :: rest)
  | root {k : Location} {rest : List Component} (h : LeadsOver t l [] rest) :
    LeadsOver t l k (.root :: rest)
  | current {k : Location} {rest : List Component} (h : LeadsOver t l k rest) :
    LeadsOver t l k (.current :: rest)
  | parent {k : Location} {rest : List Component} (h : LeadsOver t l k.dropLast rest) :
    LeadsOver t l k (.parent :: rest)
  | folder {k : Location} {s : String} {rest : List Component}
    (hget : t.get? (k ++ [s]) = some .folder) (h : LeadsOver t l (k ++ [s]) rest) :
    LeadsOver t l k (.name s :: rest)
  | link {k : Location} {s : String} {rest : List Component} {target : Path}
    (hget : t.get? (k ++ [s]) = some (.link target))
    (h : LeadsOver t l k (linkWay target ++ rest)) : LeadsOver t l k (.name s :: rest)

namespace LeadsOver

/-- What a way leads over a longer one leads over. -/
theorem append (h : LeadsOver t l k cs) (ds : List Component) : LeadsOver t l k (cs ++ ds) := by
  induction h with
  | here h => exact .here h
  | root _ ih => exact .root ih
  | current _ ih => exact .current ih
  | parent _ ih => exact .parent ih
  | folder hget _ ih => exact .folder hget ih
  | link hget _ ih =>
    rw [List.append_assoc] at ih
    exact .link hget ih

/-- A way leads over as much in a tree with at least the same folders and links. -/
theorem mono (h : LeadsOver t l k cs)
    (hfolders : ∀ k, t.get? k = some .folder → t'.get? k = some .folder)
    (hlinks : ∀ k target, t.get? k = some (.link target) → t'.get? k = some (.link target)) :
    LeadsOver t' l k cs := by
  induction h with
  | here h => exact .here h
  | root _ ih => exact .root ih
  | current _ ih => exact .current ih
  | parent _ ih => exact .parent ih
  | folder hget _ ih => exact .folder (hfolders _ hget) ih
  | link hget _ ih => exact .link (hlinks _ _ hget) ih

/-- Without links a way leads over what its beginnings spell out. -/
theorem exists_prefix (h : LeadsOver t l k cs) (hlinks : t.LinkFree) :
    ∃ ds, ds <+: cs ∧ Path.walk k ds = l := by
  induction h with
  | here h => exact ⟨[.name _], by simp, h⟩
  | root _ ih =>
    obtain ⟨ds, hds, hwalk⟩ := ih
    exact ⟨.root :: ds, by simpa using hds, hwalk⟩
  | current _ ih =>
    obtain ⟨ds, hds, hwalk⟩ := ih
    exact ⟨.current :: ds, by simpa using hds, hwalk⟩
  | parent _ ih =>
    obtain ⟨ds, hds, hwalk⟩ := ih
    exact ⟨.parent :: ds, by simpa using hds, hwalk⟩
  | folder _ _ ih =>
    obtain ⟨ds, hds, hwalk⟩ := ih
    exact ⟨.name _ :: ds, by simpa using hds, hwalk⟩
  | link hget _ _ => exact absurd hget (hlinks _ _)

/-- A way that goes on from a link leads over what the way behind the link leads over. -/
theorem of_detour {start : Location} {way : List Component}
    (hstep : advance t b k cs = .ok (.detour start way)) (h : LeadsOver t l start way) :
    LeadsOver t l k cs := by
  induction cs generalizing k with
  | nil => simp [advance] at hstep
  | cons c rest ih =>
    cases c with
    | root => exact .root (ih hstep)
    | current => exact .current (ih hstep)
    | parent => exact .parent (ih hstep)
    | name s =>
      obtain ⟨-, ⟨hget, hrest⟩ | ⟨-, -, heq⟩ | ⟨target, hget, heq⟩⟩ := advance_name_cases hstep
      · exact .folder hget (ih hrest)
      · simp at heq
      · obtain ⟨rfl, rfl⟩ := Step.detour.inj heq
        exact .link hget h

/-- A way from a folder leads over the location at which it ends, unless there is a folder. -/
theorem of_arrived (htree : t.WellFormed) (hk : t.get? k = some .folder)
    (hl : t.get? l ≠ some .folder) {place : Place}
    (hstep : advance t b k cs = .ok (.arrived place)) (hplace : place.location = l) :
    LeadsOver t l k cs := by
  induction cs generalizing k with
  | nil =>
    obtain rfl : Place.mk k (t.get? k) = place := by simpa [advance] using hstep
    exact absurd (hplace ▸ hk) hl
  | cons c rest ih =>
    cases c with
    | root => exact .root (ih (get?_root t) hstep)
    | current => exact .current (ih hk hstep)
    | parent => exact .parent (ih (htree.parent k (by simp [hk])) hstep)
    | name s =>
      obtain ⟨-, ⟨hget, hrest⟩ | ⟨-, -, heq⟩ | ⟨target, -, heq⟩⟩ := advance_name_cases hstep
      · exact .folder hget (ih hget hrest)
      · obtain rfl := Step.arrived.inj heq
        exact .here hplace
      · simp at heq

end LeadsOver

/-- A path leads over the location. -/
def Passes (t : FileTree) (l : Location) (p : Path) : Prop :=
  LeadsOver t l t.working p.components

/-! ## Two trees -/

/-- If anything stands at the location, it is a file. -/
def OnlyFile (t : FileTree) (l : Location) : Prop :=
  ∀ e, t.get? l = some e → ∃ content modified, e = .file content modified

namespace OnlyFile

theorem ne_folder (h : t.OnlyFile l) : t.get? l ≠ some .folder := by
  intro hfolder
  obtain ⟨content, modified, heq⟩ := h _ hfolder
  simp at heq

theorem ne_link (h : t.OnlyFile l) (target : Path) : t.get? l ≠ some (.link target) := by
  intro hlink
  obtain ⟨content, modified, heq⟩ := h _ hlink
  simp at heq

theorem ne_nil (h : t.OnlyFile l) : l ≠ [] := by
  rintro rfl
  exact h.ne_folder (get?_root t)

/-- A location without a folder is no folder's. -/
theorem ne_of_folder (h : t.OnlyFile l) (hk : t.get? k = some .folder) : k ≠ l := by
  rintro rfl
  exact h.ne_folder hk

theorem of_get?_eq (h : t.OnlyFile l) (heq : t'.get? l = t.get? l) : t'.OnlyFile l :=
  fun e he => h e (heq ▸ he)

end OnlyFile

/-- The trees are the same but for a file at the location: the second one has one there if the first
one has.  Neither of them is short of room. -/
structure SameBut (l : Location) (t t' : FileTree) : Prop where
  wellFormed : t.WellFormed
  working : t'.working = t.working
  clock : t'.clock = t.clock
  room : t.room = none
  room' : t'.room = none
  get?_of_ne : ∀ k, k ≠ l → t'.get? k = t.get? k
  onlyFile : t.OnlyFile l
  onlyFile' : t'.OnlyFile l
  stays : t'.get? l = none → t.get? l = none

namespace SameBut

theorem refl (htree : t.WellFormed) (hroom : t.room = none) (hfile : t.OnlyFile l) :
    SameBut l t t :=
  ⟨htree, rfl, rfl, hroom, hroom, fun _ _ => rfl, hfile, hfile, id⟩

/-! ### Paths that do not lead over the location -/

/-- A way that does not lead over the location is the same in both trees. -/
theorem advance_eq (h : SameBut l t t') (hk : t.get? k = some .folder)
    (hover : ¬ LeadsOver t l k cs) : advance t' b k cs = advance t b k cs := by
  induction cs generalizing k with
  | nil => rw [advance, advance, h.get?_of_ne k (h.onlyFile.ne_of_folder hk)]
  | cons c rest ih =>
    cases c with
    | root => exact ih (get?_root t) fun hover' => hover (.root hover')
    | current => exact ih hk fun hover' => hover (.current hover')
    | parent =>
      exact ih (h.wellFormed.parent k (by simp [hk])) fun hover' => hover (.parent hover')
    | name s =>
      have hne : k ++ [s] ≠ l := fun heq => hover (.here heq)
      simp only [advance, h.get?_of_ne _ hne]
      cases hget : t.get? (k ++ [s]) with
      | none => rfl
      | some e =>
        cases e with
        | folder => rw [ih hget fun hover' => hover (.folder hget hover')]
        | _ => rfl

/-- So it ends at the same place, which is another one than the location, or fails in the same
way. -/
theorem follow_eq (h : SameBut l t t') (hk : t.get? k = some .folder)
    (hover : ¬ LeadsOver t l k cs) (n : Nat) :
    follow t' b n (advance t' b k cs) = follow t b n (advance t b k cs) ∧
      ∀ place, follow t b n (advance t b k cs) = .ok place → place.location ≠ l := by
  rw [h.advance_eq hk hover]
  induction n generalizing k cs with
  | zero =>
    cases hstep : advance t b k cs with
    | error e => simp [follow]
    | ok step =>
      cases step with
      | arrived place =>
        refine ⟨by simp [follow], fun place' hplace heq => hover ?_⟩
        obtain rfl : place = place' := by simpa [follow] using hplace
        exact .of_arrived h.wellFormed hk h.onlyFile.ne_folder hstep heq
      | detour start way => simp [follow]
  | succ n ih =>
    cases hstep : advance t b k cs with
    | error e => simp [follow]
    | ok step =>
      cases step with
      | arrived place =>
        refine ⟨by simp [follow], fun place' hplace heq => hover ?_⟩
        obtain rfl : place = place' := by simpa [follow] using hplace
        exact .of_arrived h.wellFormed hk h.onlyFile.ne_folder hstep heq
      | detour start way =>
        have hstart : t.get? start = some .folder := hasFolder_of_advance h.wellFormed hk hstep
        have hway : ¬ LeadsOver t l start way := fun hover' => hover (.of_detour hstep hover')
        simp only [follow]
        rw [h.advance_eq hstart hway]
        exact ih hstart hway

/-- A path that does not lead over the location leads to the same place. -/
theorem placeOf_eq (h : SameBut l t t') {p : Path} (hover : ¬ t.Passes l p) (b : Bool) :
    t'.placeOf b p = t.placeOf b p := by
  unfold placeOf
  rw [h.working, (h.follow_eq h.wellFormed.working hover maxLinks).1]

/-- This place is another one than the location. -/
theorem location_ne (h : SameBut l t t') {p : Path} (hover : ¬ t.Passes l p) {place : Place}
    (hplace : t.placeOf b p = .ok place) : place.location ≠ l :=
  (h.follow_eq h.wellFormed.working hover maxLinks).2 place (placeOf_ok hplace).2

theorem locate_eq (h : SameBut l t t') {p : Path} (hover : ¬ t.Passes l p) (b : Bool) :
    t'.locate b p = t.locate b p :=
  h.placeOf_eq hover _

theorem entry?_eq (h : SameBut l t t') {p : Path} (hover : ¬ t.Passes l p) :
    t'.entry? p = t.entry? p := by
  unfold entry?
  rw [h.locate_eq hover]

theorem isThere_eq (h : SameBut l t t') {p : Path} (hover : ¬ t.Passes l p) :
    t'.isThere p = t.isThere p := by
  unfold isThere
  rw [h.entry?_eq hover]

theorem isFolder_eq (h : SameBut l t t') {p : Path} (hover : ¬ t.Passes l p) :
    t'.isFolder p = t.isFolder p := by
  unfold isFolder
  rw [h.entry?_eq hover]

/-! ### Paths that lead somewhere -/

/-- A way that can be gone in the first tree can be gone in the second one. -/
theorem advance_true (h : SameBut l t t') {step : Step} (hstep : advance t true k cs = .ok step) :
    advance t' true k cs = .ok (step.seenIn t') := by
  induction cs generalizing k with
  | nil =>
    obtain rfl := Except.ok.inj hstep
    rfl
  | cons c rest ih =>
    cases c with
    | root => exact ih hstep
    | current => exact ih hstep
    | parent => exact ih hstep
    | name s =>
      obtain ⟨hshort, ⟨hget, hrest⟩ | ⟨rfl, -, rfl⟩ | ⟨target, hlink, rfl⟩⟩ :=
        advance_name_cases hstep
      · have hne : k ++ [s] ≠ l := h.onlyFile.ne_of_folder hget
        rw [advance_name_folder hshort ((h.get?_of_ne _ hne).trans hget)]
        exact ih hrest
      · refine advance_name_last hshort fun target => ?_
        by_cases hkl : k ++ [s] = l
        · rw [hkl]
          exact h.onlyFile'.ne_link target
        · rw [h.get?_of_ne _ hkl]
          exact not_link_of_arrived hstep target
      · have hne : k ++ [s] ≠ l := by
          rintro rfl
          exact h.onlyFile.ne_link target hlink
        exact advance_name_link hshort ((h.get?_of_ne _ hne).trans hlink)

/-- A path that leads somewhere in the first tree leads there in the second one. -/
theorem placeOf_true (h : SameBut l t t') {p : Path} {place : Place}
    (hplace : t.placeOf true p = .ok place) :
    t'.placeOf true p = .ok ⟨place.location, t'.get? place.location⟩ := by
  obtain ⟨hall, hfollow⟩ := placeOf_ok hplace
  rw [hall, h.working]
  clear hall hplace
  generalize t.working = k at hfollow ⊢
  generalize p.components = cs at hfollow ⊢
  generalize maxLinks = n at hfollow ⊢
  induction n generalizing k cs with
  | zero =>
    rcases follow_cases hfollow with hstep | ⟨m, start, way, hm, -⟩
    · rw [h.advance_true hstep]
      rfl
    · omega
  | succ n ih =>
    rcases follow_cases hfollow with hstep | ⟨m, start, way, hm, hstep, hrest⟩
    · rw [h.advance_true hstep]
      rfl
    · obtain rfl : n = m := by omega
      rw [h.advance_true hstep]
      exact ih _ _ hrest

/-- What stands at the location of a path's entry is no less in the second tree. -/
theorem entry?_of_isSome (h : SameBut l t t') {p : Path} {e : Entry}
    (hentry : t.entry? p = some (k, e)) :
    ∃ e', t'.entry? p = some (k, e') ∧ e'.isFolder = e.isFolder := by
  obtain ⟨hlocate, hdemands⟩ := entry?_eq_some_iff.1 hentry
  have hget : t.get? k = some e := get?_of_entry_eq hentry
  have hplace : t'.placeOf true p = .ok ⟨k, t'.get? k⟩ := h.placeOf_true (by
    rwa [locate, Bool.true_or] at hlocate)
  have hkind : ∃ e', t'.get? k = some e' ∧ e'.isFolder = e.isFolder := by
    by_cases hkl : k = l
    · subst hkl
      obtain ⟨content, modified, rfl⟩ := h.onlyFile e hget
      cases hget' : t'.get? k with
      | none => simp [h.stays hget'] at hget
      | some e' =>
        obtain ⟨content', modified', rfl⟩ := h.onlyFile' e' hget'
        exact ⟨_, rfl, rfl⟩
    · exact ⟨e, (h.get?_of_ne k hkl).trans hget, rfl⟩
  obtain ⟨e', hget', hfolder⟩ := hkind
  refine ⟨e', entry?_eq_some_iff.2 ⟨?_, by rwa [hfolder]⟩, hfolder⟩
  rw [locate, Bool.true_or, hplace, hget']

theorem isThere_of_isThere (h : SameBut l t t') {p : Path} (hthere : t.isThere p = true) :
    t'.isThere p = true := by
  obtain ⟨⟨k, e⟩, hentry⟩ := Option.isSome_iff_exists.1 hthere
  obtain ⟨e', hentry', -⟩ := h.entry?_of_isSome hentry
  rw [isThere, hentry']
  rfl

theorem isFolder_of_isFolder (h : SameBut l t t') {p : Path} (hfolder : t.isFolder p = true) :
    t'.isFolder p = true := by
  unfold isFolder at hfolder ⊢
  cases hentry : t.entry? p with
  | none => simp [hentry] at hfolder
  | some entry =>
    obtain ⟨e', hentry', hkind⟩ := h.entry?_of_isSome hentry
    rw [hentry] at hfolder
    rw [hentry']
    exact hkind.trans hfolder

/-! ### Changes of both trees -/

/-- The trees stay the same but for the file when both change in the same way elsewhere. -/
theorem of_get?_eq (h : SameBut l t t') {u u' : FileTree} (htree : u.WellFormed)
    (hworking : u'.working = u.working) (hclock : u'.clock = u.clock) (hroom : u.room = none)
    (hroom' : u'.room = none) (hget : ∀ k, k ≠ l → u'.get? k = u.get? k)
    (hkept : u.get? l = t.get? l) (hkept' : u'.get? l = t'.get? l) : SameBut l u u' where
  wellFormed := htree
  working := hworking
  clock := hclock
  room := hroom
  room' := hroom'
  get?_of_ne := hget
  onlyFile := h.onlyFile.of_get?_eq hkept
  onlyFile' := h.onlyFile'.of_get?_eq hkept'
  stays hnone := by
    rw [hkept]
    exact h.stays (hkept' ▸ hnone)

theorem set (h : SameBut l t t') {e : Entry} (htree : (t.set k e).WellFormed) (hk : k ≠ l) :
    SameBut l (t.set k e) (t'.set k e) := by
  refine h.of_get?_eq htree h.working h.clock h.room h.room' (fun j hj => ?_)
    (get?_set_of_ne hk.symm) (get?_set_of_ne hk.symm)
  by_cases hjk : j = k
  · subst hjk
    by_cases hnil : j = []
    · rw [hnil]
      rfl
    · rw [get?_set_self hnil, get?_set_self hnil]
  · rw [get?_set_of_ne hjk, get?_set_of_ne hjk, h.get?_of_ne j hj]

theorem erase (h : SameBut l t t') (htree : (t.erase k).WellFormed) (hk : k ≠ l) :
    SameBut l (t.erase k) (t'.erase k) := by
  refine h.of_get?_eq htree h.working h.clock h.room h.room' (fun j hj => ?_)
    (get?_erase_of_ne hk.symm) (get?_erase_of_ne hk.symm)
  by_cases hjk : j = k
  · subst hjk
    by_cases hnil : j = []
    · rw [hnil]
      rfl
    · rw [get?_erase_self hnil, get?_erase_self hnil]
  · rw [get?_erase_of_ne hjk, get?_erase_of_ne hjk, h.get?_of_ne j hj]

end SameBut

end PhotoIntake.FileTree
