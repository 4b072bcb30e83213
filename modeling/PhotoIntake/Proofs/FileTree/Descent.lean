import PhotoIntake.History.Basic
import PhotoIntake.Proofs.FileTree.Following
import Mathlib.Data.List.Nodup
import Mathlib.Data.List.Perm.Subperm

/-!
# Down from a folder

A path that leads to a folder, through links or not, leads on to what stands below the folder when
names are added to it.  The links on the way to the folder count against the bound, but there are
none below it that are followed.

* `follow_append`: from the folder that a way leads to it goes on as from any folder.
* `FileBelow`: names lead from a location through folders to a file.
* `locate_descend`: a path that is long by such names means that file.
* `NamesValid`: the tree has only names that a file can have.
-/

namespace PhotoIntake.FileTree

open PhotoIntake.Path (Component)

variable {t : FileTree} {l : Location} {cs : List Component} {b : Bool}

/-! ## Ways that go on -/

/-- A way that does not end at a link does not depend on whether the last link is followed. -/
theorem advance_of_not_link {step : Step} (h : advance t false l cs = .ok step)
    (hlink : ∀ l' target, step ≠ .arrived ⟨l', some (.link target)⟩) :
    advance t true l cs = .ok step := by
  induction cs generalizing l with
  | nil => exact h
  | cons c rest ih =>
    cases c with
    | root => exact ih h
    | current => exact ih h
    | parent => exact ih h
    | name s =>
      obtain ⟨hshort, ⟨hget, hrest⟩ | ⟨rfl, -, rfl⟩ | ⟨target, hget, rfl⟩⟩ := advance_name_cases h
      · rw [advance_name_folder hshort hget]
        exact ih hrest
      · exact advance_name_last hshort fun target hget => hlink (l ++ [s]) target (by rw [hget])
      · exact advance_name_link hshort hget

/-- Following ends where it has arrived, or goes on from a link. -/
theorem follow_cases {n : Nat} {first : Except FileError Step} {place : Place}
    (h : follow t b n first = .ok place) :
    first = .ok (.arrived place) ∨
      ∃ m start way, n = m + 1 ∧ first = .ok (.detour start way) ∧
        follow t b m (advance t b start way) = .ok place := by
  cases first with
  | error e => simp [follow] at h
  | ok step =>
    cases step with
    | arrived place' =>
      obtain rfl : place' = place := by simpa [follow] using h
      exact Or.inl rfl
    | detour start way =>
      cases n with
      | zero => simp [follow] at h
      | succ m => exact Or.inr ⟨m, start, way, rfl, rfl, h⟩

theorem follow_of_not_link {n : Nat} {place : Place}
    (h : follow t false n (advance t false l cs) = .ok place)
    (hlink : ∀ target, place.entry ≠ some (.link target)) :
    follow t true n (advance t true l cs) = .ok place := by
  have hplace (l' : Location) (target : Path) :
      Step.arrived place ≠ .arrived ⟨l', some (.link target)⟩ :=
    fun heq => hlink target (congrArg Place.entry (Step.arrived.inj heq))
  induction n generalizing l cs with
  | zero =>
    rcases follow_cases h with hstep | ⟨m, start, way, hm, -⟩
    · rw [advance_of_not_link hstep hplace]
      rfl
    · omega
  | succ n ih =>
    rcases follow_cases h with hstep | ⟨m, start, way, hm, hstep, hrest⟩
    · rw [advance_of_not_link hstep hplace]
      rfl
    · obtain rfl : n = m := by omega
      rw [advance_of_not_link hstep (by simp)]
      exact ih hrest

/-- A path that means something else than a link means it whether the last link is followed or
not. -/
theorem locate_of_not_link {p : Path} {place : Place} (h : t.locate false p = .ok place)
    (hlink : ∀ target, place.entry ≠ some (.link target)) : t.locate true p = .ok place := by
  unfold locate at h ⊢
  cases hdemands : p.demandsFolder with
  | true => rwa [hdemands] at h
  | false =>
    rw [hdemands] at h
    obtain ⟨hfollow, hplace⟩ := placeOf_ok h
    rw [Bool.true_or, hfollow t true]
    exact follow_of_not_link hplace hlink

/-- A way to a folder goes on from there. -/
theorem advance_append_folder {l' : Location}
    (h : advance t true l cs = .ok (.arrived ⟨l', some .folder⟩)) (ds : List Component) :
    advance t true l (cs ++ ds) = advance t true l' ds := by
  induction cs generalizing l with
  | nil =>
    obtain ⟨rfl, -⟩ : l = l' ∧ t.get? l = some .folder := by simpa [advance] using h
    rfl
  | cons c rest ih =>
    cases c with
    | root => exact ih h
    | current => exact ih h
    | parent => exact ih h
    | name s =>
      obtain ⟨hshort, ⟨hget, hrest⟩ | ⟨-, hget, heq⟩ | ⟨target, -, heq⟩⟩ := advance_name_cases h
      · rw [List.cons_append, advance_name_folder hshort hget]
        exact ih hrest
      · simp only [Step.arrived.injEq, Place.mk.injEq] at heq
        exact absurd heq.2.symm hget
      · simp at heq

/-- The part of a way up to a link goes on past the link. -/
theorem advance_append_detour {start : Location} {way : List Component}
    (h : advance t true l cs = .ok (.detour start way)) (ds : List Component) :
    advance t true l (cs ++ ds) = .ok (.detour start (way ++ ds)) := by
  induction cs generalizing l with
  | nil => simp [advance] at h
  | cons c rest ih =>
    cases c with
    | root => exact ih h
    | current => exact ih h
    | parent => exact ih h
    | name s =>
      obtain ⟨hshort, ⟨hget, hrest⟩ | ⟨-, -, heq⟩ | ⟨target, hget, heq⟩⟩ := advance_name_cases h
      · rw [List.cons_append, advance_name_folder hshort hget]
        exact ih hrest
      · simp at heq
      · obtain ⟨rfl, rfl⟩ := Step.detour.inj heq
        rw [List.cons_append, advance_name_link hshort hget, List.append_assoc]

/-- From the folder that a way leads to it goes on as from any folder, with the links that are
left. -/
theorem follow_append {n : Nat} {l' : Location}
    (h : follow t true n (advance t true l cs) = .ok ⟨l', some .folder⟩) (ds : List Component) :
    ∃ m, follow t true n (advance t true l (cs ++ ds)) =
      follow t true m (advance t true l' ds) := by
  induction n generalizing l cs with
  | zero =>
    rcases follow_cases h with hstep | ⟨m, start, way, hm, -⟩
    · exact ⟨0, by rw [advance_append_folder hstep]⟩
    · omega
  | succ n ih =>
    rcases follow_cases h with hstep | ⟨m, start, way, hm, hstep, hrest⟩
    · exact ⟨n + 1, by rw [advance_append_folder hstep]⟩
    · obtain rfl : n = m := by omega
      rw [advance_append_detour hstep]
      exact ih hrest

/-! ## Files below a folder -/

/-- The names lead from the location through folders to a file. -/
inductive FileBelow (t : FileTree) (content : ByteArray) (modified : Int) :
    Location → List String → Prop
  | file {l : Location} {s : String} (h : t.get? (l ++ [s]) = some (.file content modified)) :
    FileBelow t content modified l [s]
  | inside {l : Location} {s : String} {names : List String}
    (h : t.get? (l ++ [s]) = some .folder) (rest : FileBelow t content modified (l ++ [s]) names) :
    FileBelow t content modified l (s :: names)

namespace FileBelow

variable {content : ByteArray} {modified : Int} {names : List String}

theorem get?_eq (h : FileBelow t content modified l names) :
    t.get? (l ++ names) = some (.file content modified) := by
  induction h with
  | file h => exact h
  | inside _ _ ih => rwa [List.append_assoc] at ih

theorem ne_nil (h : FileBelow t content modified l names) : names ≠ [] := by
  cases h <;> simp

/-- Names lead as far in another tree that is the same below the location. -/
theorem congr {t' : FileTree} (h : FileBelow t content modified l names)
    (hsame : ∀ l', l <+: l' → t'.get? l' = t.get? l') :
    FileBelow t' content modified l names := by
  induction h with
  | file h => exact .file ((hsame _ (List.prefix_append _ _)).trans h)
  | inside h _ ih =>
    exact .inside ((hsame _ (List.prefix_append _ _)).trans h)
      (ih fun l' hl' => hsame l' ((List.prefix_append _ _).trans hl'))

/-- Names that are short enough are gone along. -/
theorem advance_eq (h : FileBelow t content modified l names)
    (hshort : ∀ s ∈ names, s.utf8ByteSize ≤ maxNameLength) :
    advance t b l (names.map .name) =
      .ok (.arrived ⟨l ++ names, some (.file content modified)⟩) := by
  induction h with
  | file h =>
    rw [List.map_cons, List.map_nil, advance_name_last (hshort _ List.mem_cons_self) (by simp [h]),
      h]
  | inside h _ ih =>
    rw [List.map_cons, advance_name_folder (hshort _ List.mem_cons_self) h,
      ih fun s hs => hshort s (List.mem_cons_of_mem _ hs), List.append_assoc]
    rfl

/-- Something stands after each of the names. -/
theorem isSome_take (h : FileBelow t content modified l names) {k : Nat} (hk : k < names.length) :
    (t.get? (l ++ names.take (k + 1))).isSome = true := by
  induction h generalizing k with
  | file h =>
    obtain rfl : k = 0 := by simpa using hk
    simp [h]
  | inside h _ ih =>
    cases k with
    | zero => simp [h]
    | succ k => simpa using ih (k := k) (by simpa using hk)

/-- No file lies deeper than the tree has entries. -/
theorem length_le (h : FileBelow t content modified l names) :
    names.length ≤ t.entries.length := by
  let places := (List.range names.length).map fun k => l ++ names.take (k + 1)
  have hnodup : places.Nodup := by
    refine List.Nodup.map_on (fun i hi j hj heq => ?_) List.nodup_range
    have hlengths := congrArg List.length heq
    simp only [List.mem_range] at hi hj
    simp only [List.length_append, List.length_take] at hlengths
    omega
  have hthere : places ⊆ t.entries.map Prod.fst := by
    intro place hplace
    obtain ⟨k, hk, rfl⟩ := List.mem_map.1 hplace
    obtain ⟨e, he⟩ := Option.isSome_iff_exists.1 (h.isSome_take (List.mem_range.1 hk))
    refine List.mem_map_of_mem (mem_entries_of_get? ?_ he)
    have hne := h.ne_nil
    simp [hne]
  calc names.length = places.length := by simp [places]
    _ ≤ (t.entries.map Prod.fst).length := (hnodup.subperm hthere).length_le
    _ = t.entries.length := List.length_map _

end FileBelow

/-! ## What files below a folder are recognised by -/

/-- All names in the tree are names that a file can have. -/
def NamesValid (t : FileTree) : Prop :=
  ∀ l, (t.get? l).isSome → ∀ s ∈ l, Path.IsName s ∧ s.utf8ByteSize ≤ maxNameLength

theorem namesValid_of_entries
    (h : ∀ entry ∈ t.entries, ∀ s ∈ entry.1, Path.IsName s ∧ s.utf8ByteSize ≤ maxNameLength) :
    t.NamesValid := by
  intro l hsome s hs
  obtain ⟨e, he⟩ := Option.isSome_iff_exists.1 hsome
  exact h (l, e) (mem_entries_of_get? (List.ne_nil_of_mem hs) he) s hs

/-- The text of the path can be followed, wherever that leads. -/
def Followable (p : Path) : Prop :=
  ∀ (t : FileTree) (b : Bool),
    t.placeOf b p = follow t b maxLinks (advance t b t.working p.components)

theorem followable_of_placeOf {p : Path} {place : Place} (h : t.placeOf b p = .ok place) :
    Followable p :=
  (placeOf_ok h).1

theorem followable_of_ofPath {p : Path} {id : FileIdentity}
    (h : FileIdentity.ofPath t p = .ok id) : Followable p := by
  unfold FileIdentity.ofPath at h
  cases hlocate : t.locate true p with
  | error e => simp [hlocate] at h
  | ok place => exact followable_of_placeOf hlocate

/-- A file is recognised by what it is, wherever the path to it leads along. -/
theorem ofPath_of_locate {p : Path} {content : ByteArray} {modified : Int}
    (h : t.locate true p = .ok ⟨l, some (.file content modified)⟩)
    (hdemands : p.demandsFolder = false) :
    FileIdentity.ofPath t p =
      .ok ⟨p.fileName?.getD "", content.size, FileIdentity.seconds modified⟩ := by
  simp only [FileIdentity.ofPath, h, hdemands, Bool.false_and, Bool.false_eq_true, if_false]

/-- Below a folder that a path leads to, names lead on to the files in it. -/
theorem locate_descend {root : Path} {content : ByteArray} {modified : Int} {names : List String}
    (hroot : t.locate true root = .ok ⟨l, some .folder⟩)
    (hbelow : FileBelow t content modified l names)
    (hnames : ∀ s ∈ names, Path.IsName s ∧ s.utf8ByteSize ≤ maxNameLength)
    (hfollow : Followable (root.descend names)) :
    t.locate true (root.descend names) = .ok ⟨l ++ names, some (.file content modified)⟩ := by
  obtain ⟨-, hplace⟩ := placeOf_ok hroot
  rw [Bool.true_or] at hplace
  obtain ⟨m, hm⟩ := follow_append hplace (names.map .name)
  rw [locate, Bool.true_or, hfollow, Path.components_descend fun s hs => (hnames s hs).1, hm,
    hbelow.advance_eq fun s hs => (hnames s hs).2]
  cases m <;> rfl

theorem demandsFolder_descend {root : Path} {names : List String} (hne : names ≠ [])
    (hnames : ∀ s ∈ names, Path.IsName s) : (root.descend names).demandsFolder = false := by
  obtain ⟨before, s, rfl⟩ : ∃ before s, names = before ++ [s] :=
    ⟨names.dropLast, names.getLast hne, (List.dropLast_append_getLast hne).symm⟩
  rw [Path.descend, List.foldl_append]
  exact Path.demandsFolder_join_name (hnames s (by simp))

end PhotoIntake.FileTree
