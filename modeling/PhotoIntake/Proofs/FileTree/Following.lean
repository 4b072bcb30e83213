import PhotoIntake.Proofs.FileTree.Entries
import PhotoIntake.Proofs.Path.Components

/-!
# Where paths lead in a tree without links

Without links a path leads to the location that its components spell out, `locationOf`, or nowhere.

* `locate_eq`: a path that leads somewhere leads to its location and what stands there.
* `placeOf_mono`: it still leads there in a tree that has at least the same folders.
* `advance_of_isSome`: a path without a way up leads to whatever stands at its location.
* `parent_of_placeOf`: what a path leads to stands in a folder, with links on the way or not.
* `follow_snoc`: up to its last name a way does not depend on that name.
-/

namespace PhotoIntake

/-- Where a component leads from a location. -/
def Path.Component.walk (l : Location) : Path.Component → Location
  | .root => []
  | .current => l
  | .parent => l.dropLast
  | .name s => l ++ [s]

/-- Where components lead from a location. -/
def Path.walk (l : Location) (cs : List Path.Component) : Location :=
  cs.foldl Path.Component.walk l

theorem Path.walk_append (l : Location) (cs ds : List Path.Component) :
    Path.walk l (cs ++ ds) = Path.walk (Path.walk l cs) ds :=
  List.foldl_append

@[simp] theorem Path.walk_names (l : Location) (names : List String) :
    Path.walk l (names.map .name) = l ++ names := by
  induction names generalizing l with
  | nil => simp [Path.walk]
  | cons s rest ih =>
    show Path.walk (l ++ [s]) (rest.map .name) = _
    rw [ih, List.append_assoc]
    rfl

namespace FileTree

open PhotoIntake.Path (Component)

variable {t t' : FileTree} {l : Location} {cs : List Component} {b : Bool}

/-- The location that a path spells out. -/
def locationOf (t : FileTree) (p : Path) : Location :=
  Path.walk t.working p.components

/-! ## One name -/

/-- The ways past a name: down into a folder, to its end, or off to where a link points. -/
theorem advance_name_cases {s : String} {step : Step}
    (h : advance t b l (.name s :: cs) = .ok step) :
    s.utf8ByteSize ≤ maxNameLength ∧
      (t.get? (l ++ [s]) = some .folder ∧ advance t b (l ++ [s]) cs = .ok step ∨
        cs = [] ∧ t.get? (l ++ [s]) ≠ some .folder ∧
          step = .arrived ⟨l ++ [s], t.get? (l ++ [s])⟩ ∨
        ∃ target, t.get? (l ++ [s]) = some (.link target) ∧
          step = .detour l (linkWay target ++ cs)) := by
  rw [advance] at h
  by_cases hlong : maxNameLength < s.utf8ByteSize
  · simp [hlong] at h
  · rw [if_neg hlong] at h
    refine ⟨Nat.le_of_not_lt hlong, ?_⟩
    have hend {place : Place} {failure : FileError}
        (h : (if cs.isEmpty then .ok (.arrived place) else .error failure) =
          (.ok step : Except FileError Step)) : cs = [] ∧ step = .arrived place := by
      split_ifs at h with hcs
      exact ⟨List.isEmpty_iff.1 hcs, (Except.ok.inj h).symm⟩
    cases hget : t.get? (l ++ [s]) with
    | none =>
      obtain ⟨hcs, hstep⟩ := hend (by simpa only [hget] using h)
      exact Or.inr (Or.inl ⟨hcs, by simp, hstep⟩)
    | some e =>
      cases e with
      | folder => exact Or.inl ⟨rfl, by simpa only [hget] using h⟩
      | link target =>
        simp only [hget] at h
        split_ifs at h with hstays
        · obtain ⟨hcs, -⟩ := Bool.and_eq_true_iff.1 hstays
          exact Or.inr (Or.inl ⟨List.isEmpty_iff.1 hcs, by simp, (Except.ok.inj h).symm⟩)
        · exact Or.inr (Or.inr ⟨target, rfl, (Except.ok.inj h).symm⟩)
      | file content modified =>
        obtain ⟨hcs, hstep⟩ := hend (by simpa only [hget] using h)
        exact Or.inr (Or.inl ⟨hcs, by simp, hstep⟩)
      | fullDevice =>
        obtain ⟨hcs, hstep⟩ := hend (by simpa only [hget] using h)
        exact Or.inr (Or.inl ⟨hcs, by simp, hstep⟩)

/-- Without links there are two ways past a name. -/
theorem LinkFree.advance_name_cases (hlinks : t.LinkFree) {s : String} {step : Step}
    (h : advance t b l (.name s :: cs) = .ok step) :
    s.utf8ByteSize ≤ maxNameLength ∧
      (t.get? (l ++ [s]) = some .folder ∧ advance t b (l ++ [s]) cs = .ok step ∨
        cs = [] ∧ step = .arrived ⟨l ++ [s], t.get? (l ++ [s])⟩) := by
  obtain ⟨hshort, hdown | ⟨hcs, -, hstep⟩ | ⟨target, hlink, -⟩⟩ := FileTree.advance_name_cases h
  · exact ⟨hshort, Or.inl hdown⟩
  · exact ⟨hshort, Or.inr ⟨hcs, hstep⟩⟩
  · exact absurd hlink (hlinks _ _)

/-- A folder is walked into. -/
theorem advance_name_folder {s : String} (hshort : s.utf8ByteSize ≤ maxNameLength)
    (hget : t.get? (l ++ [s]) = some .folder) :
    advance t b l (.name s :: cs) = advance t b (l ++ [s]) cs := by
  rw [advance, if_neg (Nat.not_lt.2 hshort)]
  simp only [hget]

/-- The last name leads to what stands there, if anything does and it is no link. -/
theorem advance_name_last {s : String} (hshort : s.utf8ByteSize ≤ maxNameLength)
    (hlink : ∀ target, t.get? (l ++ [s]) ≠ some (.link target)) :
    advance t b l [.name s] = .ok (.arrived ⟨l ++ [s], t.get? (l ++ [s])⟩) := by
  rw [advance, if_neg (Nat.not_lt.2 hshort)]
  cases hget : t.get? (l ++ [s]) with
  | none => simp [hget]
  | some e =>
    cases e with
    | folder => simp [hget, advance]
    | link target => exact absurd hget (hlink target)
    | file content modified => simp [hget]
    | fullDevice => simp [hget]

/-- A link is gone along if links at the end are followed. -/
theorem advance_name_link {s : String} (hshort : s.utf8ByteSize ≤ maxNameLength) {target : Path}
    (hget : t.get? (l ++ [s]) = some (.link target)) :
    advance t true l (.name s :: cs) = .ok (.detour l (linkWay target ++ cs)) := by
  rw [advance, if_neg (Nat.not_lt.2 hshort)]
  simp [hget]

/-! ## A whole way -/

/-- Without links a way that can be gone leads to the location that it spells out. -/
theorem advance_eq (hlinks : t.LinkFree) {step : Step} (h : advance t b l cs = .ok step) :
    step = .arrived ⟨Path.walk l cs, t.get? (Path.walk l cs)⟩ := by
  induction cs generalizing l with
  | nil => exact (Except.ok.inj h).symm
  | cons c rest ih =>
    cases c with
    | root => exact ih h
    | current => exact ih h
    | parent => exact ih h
    | name s =>
      obtain ⟨-, ⟨-, hrest⟩ | ⟨rfl, hstep⟩⟩ := hlinks.advance_name_cases h
      · exact ih hrest
      · exact hstep

/-- A way that can be gone can be gone in every tree without links that has the same folders and
maybe more. -/
theorem advance_mono (hlinks : t.LinkFree) (hlinks' : t'.LinkFree)
    (hfolders : ∀ l, t.get? l = some .folder → t'.get? l = some .folder) {step : Step}
    (h : advance t b l cs = .ok step) (b' : Bool) :
    advance t' b' l cs = .ok (.arrived ⟨Path.walk l cs, t'.get? (Path.walk l cs)⟩) := by
  induction cs generalizing l with
  | nil => rfl
  | cons c rest ih =>
    cases c with
    | root => exact ih h
    | current => exact ih h
    | parent => exact ih h
    | name s =>
      obtain ⟨hshort, ⟨hget, hrest⟩ | ⟨rfl, -⟩⟩ := hlinks.advance_name_cases h
      · rw [advance_name_folder hshort (hfolders _ hget)]
        exact ih hrest
      · exact advance_name_last hshort (hlinks' _)

/-- Every name on a way that can be gone is short enough. -/
theorem short_of_advance (hlinks : t.LinkFree) {step : Step} (h : advance t b l cs = .ok step)
    {s : String} (hs : Component.name s ∈ cs) : s.utf8ByteSize ≤ maxNameLength := by
  induction cs generalizing l with
  | nil => simp at hs
  | cons c rest ih =>
    cases c with
    | root => exact ih h (by simpa using hs)
    | current => exact ih h (by simpa using hs)
    | parent => exact ih h (by simpa using hs)
    | name s' =>
      obtain ⟨hshort, hrest⟩ := hlinks.advance_name_cases h
      rcases List.mem_cons.1 hs with heq | hs
      · obtain rfl := Component.name.inj heq
        exact hshort
      · obtain ⟨-, hrest⟩ | ⟨rfl, -⟩ := hrest
        · exact ih hrest hs
        · simp at hs

/-- Names lead to whatever stands below a location. -/
theorem advance_names (htree : t.WellFormed) (hlinks : t.LinkFree) {names : List String}
    (hshort : ∀ s ∈ names, s.utf8ByteSize ≤ maxNameLength)
    (hsome : (t.get? (l ++ names)).isSome) :
    advance t b l (names.map .name) = .ok (.arrived ⟨l ++ names, t.get? (l ++ names)⟩) := by
  induction names generalizing l with
  | nil => simp [advance]
  | cons s rest ih =>
    have hs : s.utf8ByteSize ≤ maxNameLength := hshort s List.mem_cons_self
    have hsplit : l ++ s :: rest = (l ++ [s]) ++ rest := by simp
    by_cases hrest : rest = []
    · subst hrest
      exact advance_name_last hs (hlinks _)
    · have hfolder : t.get? (l ++ [s]) = some .folder :=
        htree.folder_above hsome ⟨rest, by simp⟩ (by simp [hrest])
      rw [hsplit] at hsome ⊢
      rw [List.map_cons, advance_name_folder hs hfolder]
      exact ih (fun s hs => hshort s (List.mem_cons_of_mem _ hs)) hsome

/-- A way that never goes up leads to whatever stands at the location that it spells out. -/
theorem advance_of_isSome (htree : t.WellFormed) (hlinks : t.LinkFree) (hcs : Path.Canonical cs)
    (hup : Component.parent ∉ cs)
    (hshort : ∀ s, Component.name s ∈ cs → s.utf8ByteSize ≤ maxNameLength)
    (hsome : (t.get? (Path.walk l cs)).isSome) :
    advance t b l cs = .ok (.arrived ⟨Path.walk l cs, t.get? (Path.walk l cs)⟩) := by
  have hnames {cs : List Component} {l : Location} (hcs : ∀ c ∈ cs, c.IsInner)
      (hup : Component.parent ∉ cs)
      (hshort : ∀ s, Component.name s ∈ cs → s.utf8ByteSize ≤ maxNameLength)
      (hsome : (t.get? (Path.walk l cs)).isSome) :
      advance t b l cs = .ok (.arrived ⟨Path.walk l cs, t.get? (Path.walk l cs)⟩) := by
    obtain ⟨names, rfl⟩ := Path.exists_names_of_inner hcs hup
    rw [Path.walk_names] at hsome ⊢
    exact advance_names htree hlinks
      (fun s hs => hshort s (List.mem_map_of_mem hs)) hsome
  cases cs with
  | nil => rfl
  | cons c rest =>
    have hup' : Component.parent ∉ rest := fun h => hup (List.mem_cons_of_mem _ h)
    have hshort' : ∀ s, Component.name s ∈ rest → s.utf8ByteSize ≤ maxNameLength :=
      fun s hs => hshort s (List.mem_cons_of_mem _ hs)
    rcases hcs.1 with rfl | rfl | hinner
    · have h := hnames (l := []) hcs.2 hup' hshort' hsome
      exact h
    · have h := hnames hcs.2 hup' hshort' hsome
      exact h
    · refine hnames (fun d hd => ?_) hup hshort hsome
      rcases List.mem_cons.1 hd with rfl | hd
      · exact hinner
      · exact hcs.2 d hd

/-! ## What every way leads to -/

/-- The folder that a step leads into, or leads on from, is there. -/
def Step.HasFolder (t : FileTree) : Step → Prop
  | .arrived place => t.get? place.location.dropLast = some .folder
  | .detour start _ => t.get? start = some .folder

/-- A way from a folder stays among folders up to its end. -/
theorem hasFolder_of_advance (htree : t.WellFormed) (hl : t.get? l = some .folder) {step : Step}
    (h : advance t b l cs = .ok step) : step.HasFolder t := by
  induction cs generalizing l with
  | nil =>
    obtain rfl := Except.ok.inj h
    exact htree.parent l (by simp [hl])
  | cons c rest ih =>
    cases c with
    | root => exact ih (get?_root t) h
    | current => exact ih hl h
    | parent => exact ih (htree.parent l (by simp [hl])) h
    | name s =>
      obtain ⟨-, ⟨hget, hrest⟩ | ⟨rfl, -, rfl⟩ | ⟨target, -, rfl⟩⟩ := advance_name_cases h
      · exact ih hget hrest
      · simpa [Step.HasFolder] using hl
      · exact hl

/-- A step that has arrived says what stands where it is. -/
def Step.IsTrue (t : FileTree) : Step → Prop
  | .arrived place => place.entry = t.get? place.location
  | .detour _ _ => True

theorem isTrue_of_advance {step : Step} (h : advance t b l cs = .ok step) : step.IsTrue t := by
  induction cs generalizing l with
  | nil =>
    obtain rfl := Except.ok.inj h
    rfl
  | cons c rest ih =>
    cases c with
    | root => exact ih h
    | current => exact ih h
    | parent => exact ih h
    | name s =>
      obtain ⟨-, ⟨-, hrest⟩ | ⟨rfl, -, rfl⟩ | ⟨target, -, rfl⟩⟩ := advance_name_cases h
      · exact ih hrest
      · rfl
      · trivial

/-- What holds of every step that a way leads to holds where the links end. -/
theorem follow_induction {P : Step → Prop} {n : Nat} {first : Except FileError Step} {place : Place}
    (hfirst : ∀ step, first = .ok step → P step)
    (hdetour : ∀ start way, P (.detour start way) →
      ∀ step, advance t b start way = .ok step → P step)
    (h : follow t b n first = .ok place) : P (.arrived place) := by
  induction n generalizing first with
  | zero =>
    cases first with
    | error e => simp [follow] at h
    | ok step =>
      cases step with
      | arrived place' =>
        obtain rfl : place' = place := by simpa [follow] using h
        exact hfirst _ rfl
      | detour start way => simp [follow] at h
  | succ n ih =>
    cases first with
    | error e => simp [follow] at h
    | ok step =>
      cases step with
      | arrived place' =>
        obtain rfl : place' = place := by simpa [follow] using h
        exact hfirst _ rfl
      | detour start way => exact ih (hdetour start way (hfirst _ rfl)) h

/-! ## Ways that differ in their last name -/

/-- Up to its last name a way does not depend on that name: it fails, it meets a link, or it leads
to the folder of the last name. -/
theorem advance_snoc (t : FileTree) (b : Bool) (l : Location) (cs : List Component) :
    (∃ e, ∀ s, advance t b l (cs ++ [.name s]) = .error e) ∨
      (∃ start way, ∀ s, advance t b l (cs ++ [.name s]) = .ok (.detour start (way ++ [.name s]))) ∨
      ∃ folder, ∀ s, advance t b l (cs ++ [.name s]) = advance t b folder [.name s] := by
  induction cs generalizing l with
  | nil => exact Or.inr (Or.inr ⟨l, fun _ => rfl⟩)
  | cons c rest ih =>
    cases c with
    | root => exact ih []
    | current => exact ih l
    | parent => exact ih l.dropLast
    | name s' =>
      by_cases hlong : maxNameLength < s'.utf8ByteSize
      · exact Or.inl ⟨.nameTooLong, fun s => by rw [List.cons_append, advance, if_pos hlong]⟩
      · have hmore (s : String) : (rest ++ [Component.name s]).isEmpty = false := by simp
        cases hget : t.get? (l ++ [s']) with
        | none =>
          refine Or.inl ⟨.missing, fun s => ?_⟩
          rw [List.cons_append, advance, if_neg hlong]
          simp [hget]
        | some e =>
          cases e with
          | folder =>
            have hstep (s : String) : advance t b l (.name s' :: rest ++ [.name s]) =
                advance t b (l ++ [s']) (rest ++ [.name s]) :=
              advance_name_folder (Nat.le_of_not_lt hlong) hget
            simpa only [hstep] using ih (l ++ [s'])
          | link target =>
            refine Or.inr (Or.inl ⟨l, linkWay target ++ rest, fun s => ?_⟩)
            rw [List.cons_append, advance, if_neg hlong]
            simp [hget]
          | _ =>
            refine Or.inl ⟨.notFolder, fun s => ?_⟩
            rw [List.cons_append, advance, if_neg hlong]
            simp [hget]

/-- The same for a way on which links are followed. -/
theorem follow_snoc (t : FileTree) (b : Bool) (n : Nat) (l : Location) (cs : List Component) :
    (∃ e, ∀ s, follow t b n (advance t b l (cs ++ [.name s])) = .error e) ∨
      ∃ m folder, ∀ s, follow t b n (advance t b l (cs ++ [.name s])) =
        follow t b m (advance t b folder [.name s]) := by
  induction n generalizing l cs with
  | zero =>
    rcases advance_snoc t b l cs with ⟨e, h⟩ | ⟨start, way, h⟩ | ⟨folder, h⟩
    · exact Or.inl ⟨e, fun s => by rw [h, follow]⟩
    · exact Or.inl ⟨.linkLoop, fun s => by rw [h, follow]⟩
    · exact Or.inr ⟨0, folder, fun s => by rw [h]⟩
  | succ n ih =>
    rcases advance_snoc t b l cs with ⟨e, h⟩ | ⟨start, way, h⟩ | ⟨folder, h⟩
    · exact Or.inl ⟨e, fun s => by rw [h, follow]⟩
    · simpa only [h, follow] using ih start way
    · exact Or.inr ⟨n + 1, folder, fun s => by rw [h]⟩

/-- A last name that leads to something is the name of an entry in its folder. -/
theorem isSome_of_follow_last {n : Nat} {s : String} {place : Place}
    (h : follow t b n (advance t b l [.name s]) = .ok place) (hentry : place.entry.isSome) :
    (t.get? (l ++ [s])).isSome := by
  cases hstep : advance t b l [.name s] with
  | error e => simp [hstep, follow] at h
  | ok step =>
    obtain ⟨-, ⟨hget, -⟩ | ⟨-, -, rfl⟩ | ⟨target, hget, -⟩⟩ := advance_name_cases hstep
    · simp [hget]
    · obtain rfl : Place.mk (l ++ [s]) (t.get? (l ++ [s])) = place := by
        simpa [hstep, follow] using h
      exact hentry
    · simp [hget]

/-! ## Whole paths -/

/-- A path that leads to a place does so along its components, and so does every path of its text
in other trees. -/
theorem placeOf_ok {p : Path} {place : Place} (h : t.placeOf b p = .ok place) :
    (∀ (t' : FileTree) (b' : Bool), t'.placeOf b' p =
        follow t' b' maxLinks (advance t' b' t'.working p.components)) ∧
      follow t b maxLinks (advance t b t.working p.components) = .ok place := by
  unfold placeOf at h
  split_ifs at h with hempty hzero hlong
  refine ⟨fun t' b' => ?_, h⟩
  rw [placeOf, if_neg hempty, if_neg hzero, if_neg hlong]

/-- A place says what stands there. -/
theorem entry_of_placeOf {p : Path} {place : Place} (h : t.placeOf b p = .ok place) :
    place.entry = t.get? place.location :=
  follow_induction (P := Step.IsTrue t) (fun _ h => isTrue_of_advance h)
    (fun _ _ _ _ h => isTrue_of_advance h) (placeOf_ok h).2

/-- What a path leads to stands in a folder. -/
theorem parent_of_placeOf (htree : t.WellFormed) {p : Path} {place : Place}
    (h : t.placeOf b p = .ok place) : t.get? place.location.dropLast = some .folder :=
  follow_induction (P := Step.HasFolder t) (fun _ h => hasFolder_of_advance htree htree.working h)
    (fun _ _ hstart _ h => hasFolder_of_advance htree hstart h) (placeOf_ok h).2

theorem placeOf_eq (hlinks : t.LinkFree) {p : Path} {place : Place}
    (h : t.placeOf b p = .ok place) : place = ⟨t.locationOf p, t.get? (t.locationOf p)⟩ := by
  obtain ⟨-, hfollow⟩ := placeOf_ok h
  cases hstep : advance t b t.working p.components with
  | error e => simp [hstep, follow] at hfollow
  | ok step =>
    rw [hstep, advance_eq hlinks hstep] at hfollow
    exact (Except.ok.inj hfollow).symm

theorem exists_advance_of_placeOf {p : Path} {place : Place} (h : t.placeOf b p = .ok place) :
    ∃ step, advance t b t.working p.components = .ok step := by
  obtain ⟨-, hfollow⟩ := placeOf_ok h
  cases hstep : advance t b t.working p.components with
  | error e => simp [hstep, follow] at hfollow
  | ok step => exact ⟨step, rfl⟩

/-- Without links a path that leads somewhere leads to its location. -/
theorem locate_eq (hlinks : t.LinkFree) {p : Path} {place : Place} (h : t.locate b p = .ok place) :
    place = ⟨t.locationOf p, t.get? (t.locationOf p)⟩ :=
  placeOf_eq hlinks h

theorem locationOf_congr (hworking : t'.working = t.working) (p : Path) :
    t'.locationOf p = t.locationOf p := by
  rw [locationOf, locationOf, hworking]

/-- A path leads as far in a tree with more folders. -/
theorem placeOf_mono (hlinks : t.LinkFree) (hlinks' : t'.LinkFree)
    (hworking : t'.working = t.working)
    (hfolders : ∀ l, t.get? l = some .folder → t'.get? l = some .folder) {p : Path} {place : Place}
    (h : t.placeOf b p = .ok place) (b' : Bool) :
    t'.placeOf b' p = .ok ⟨t.locationOf p, t'.get? (t.locationOf p)⟩ := by
  obtain ⟨step, hstep⟩ := exists_advance_of_placeOf h
  have hadvance := advance_mono hlinks hlinks' hfolders hstep b'
  rw [(placeOf_ok h).1, hworking, hadvance]
  rfl

/-- A path means the entry that it leads to, unless it asks for a folder and there is none. -/
theorem entry?_eq_some_iff {p : Path} {l : Location} {e : Entry} :
    t.entry? p = some (l, e) ↔
      t.locate true p = .ok ⟨l, some e⟩ ∧ (p.demandsFolder && !e.isFolder) = false := by
  unfold entry?
  split
  · rename_i l' e' hlocate
    rw [hlocate]
    split_ifs with hfolder
    · simp only [false_iff, not_and]
      intro heq
      obtain ⟨rfl, rfl⟩ : l' = l ∧ e' = e := by simpa using heq
      simp [hfolder]
    · simp only [Option.some.injEq, Prod.mk.injEq, Except.ok.injEq, Place.mk.injEq]
      constructor
      · rintro ⟨rfl, rfl⟩
        exact ⟨⟨rfl, rfl⟩, by simpa using hfolder⟩
      · rintro ⟨⟨rfl, rfl⟩, -⟩
        exact ⟨rfl, rfl⟩
  · rename_i hnone
    refine ⟨fun h => by simp at h, fun h => absurd h.1 (hnone l e)⟩

/-- What a path means stands at its location. -/
theorem get?_of_entry_eq {p : Path} {l : Location} {e : Entry} (h : t.entry? p = some (l, e)) :
    t.get? l = some e :=
  (entry_of_placeOf (entry?_eq_some_iff.1 h).1).symm

theorem location_of_entry_eq (hlinks : t.LinkFree) {p : Path} {l : Location} {e : Entry}
    (h : t.entry? p = some (l, e)) : l = t.locationOf p :=
  congrArg Place.location (locate_eq hlinks (entry?_eq_some_iff.1 h).1)

/-- What a path means in a tree is meant by it in a tree with more folders, if it is still there. -/
theorem entry?_mono (hlinks : t.LinkFree) (hlinks' : t'.LinkFree)
    (hworking : t'.working = t.working)
    (hfolders : ∀ l, t.get? l = some .folder → t'.get? l = some .folder) {p : Path}
    {l : Location} {e : Entry} (h : t.entry? p = some (l, e)) (hget : t'.get? l = some e) :
    t'.entry? p = some (l, e) := by
  obtain ⟨hlocate, hfolder⟩ := entry?_eq_some_iff.1 h
  obtain ⟨rfl, -⟩ : l = t.locationOf p ∧ some e = t.get? (t.locationOf p) := by
    simpa using locate_eq hlinks hlocate
  refine entry?_eq_some_iff.2 ⟨?_, hfolder⟩
  rw [locate, placeOf_mono hlinks hlinks' hworking hfolders hlocate, hget]

/-- A path without a way up that leads nowhere, or to nothing, has nothing at its location, if its
names are short and its text can be followed. -/
theorem get?_locationOf_of_not_isThere (htree : t.WellFormed) (hlinks : t.LinkFree) {p : Path}
    (hup : Component.parent ∉ p.components) (hdemands : p.demandsFolder = false)
    (hlinks' : t'.LinkFree) {place : Place} (hlocate : t'.locate b p = .ok place)
    (h : t.isThere p = false) :
    t.get? (t.locationOf p) = none := by
  by_contra hsome
  obtain ⟨e, he⟩ := Option.ne_none_iff_exists'.1 hsome
  obtain ⟨step, hstep⟩ := exists_advance_of_placeOf hlocate
  have hshort : ∀ s, Component.name s ∈ p.components → s.utf8ByteSize ≤ maxNameLength :=
    fun s hs => short_of_advance hlinks' hstep hs
  have hadvance := advance_of_isSome (b := true) htree hlinks (Path.canonical_components p) hup
    hshort (Option.isSome_iff_exists.2 ⟨e, he⟩)
  have hplace : t.locate true p = .ok ⟨t.locationOf p, some e⟩ := by
    rw [← he]
    unfold locate
    rw [(placeOf_ok hlocate).1, Bool.true_or, hadvance]
    rfl
  have hentry : t.entry? p = some (t.locationOf p, e) :=
    entry?_eq_some_iff.2 ⟨hplace, by simp [hdemands]⟩
  simp [isThere, hentry] at h

end FileTree

end PhotoIntake
