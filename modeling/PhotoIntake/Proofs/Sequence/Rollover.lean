import PhotoIntake.Proofs.FileTree.Stored
import PhotoIntake.Proofs.Sequence.Saving

/-!
# Days that begin at different moments

Sequences begin a new day when they are first asked for their counters on it, and then they have
something to write.  Asked more often, they begin the day earlier and write their file more often,
but they show the same counters.

* `Daily.on_later`: a day that was begun on the way to a later one makes no difference.
* `Faithful`: sequences that have nothing to write show what their file shows.
* `Twins` relates sequences to others that were asked more often, with files that are the same but
  for theirs.  `Twins.look`, `Twins.snapshot`, `Twins.increment` and `Twins.save` keep it.
* `Twins.fresh`: fresh sequences on the two files show the same counters.
-/

namespace PhotoIntake

open Calendar (Date)

namespace Sequence

variable {today later : Date}

/-- The count on a day is the same if a day before was begun in between. -/
theorem Daily.on_later (d : Daily) (hday : ¬ later < today) :
    (d.on today).on later = d.on later := by
  rcases d.on_cases today with hsame | ⟨hbegun, hon⟩
  · rw [hsame]
  · by_cases hlater : today < later
    · rw [hon, on, on, if_pos hlater, if_pos (Date.lt_trans hbegun hlater)]
    · obtain rfl := Date.eq_of_not_lt hlater hday
      exact on_on d today

namespace Durable

@[simp] theorem on_on (d : Durable) (today : Date) : (d.on today).on today = d.on today := by
  simp [on]

theorem on_later (d : Durable) (hday : ¬ later < today) : (d.on today).on later = d.on later := by
  simp [on, Daily.on_later _ hday]

/-- If there are none, they are the first ones of whichever day they are asked for. -/
theorem inFile_later (path : Path) (t : FileTree) (hday : ¬ later < today) :
    ((inFile path t today).on today).on later = (inFile path t later).on later := by
  rw [on_later _ hday]
  unfold inFile
  cases read? path t with
  | some d => rfl
  | none =>
    show (first today).on later = (first later).on later
    by_cases hlater : today < later
    · simp [first, on, Daily.on, hlater, Date.lt_irrefl]
    · obtain rfl := Date.eq_of_not_lt hlater hday
      rfl

/-- What can be read depends on the file alone. -/
theorem read?_congr {path : Path} {t u : FileTree} {l : Location} (hleads : t.Leads path l)
    (hfile : t.OnlyFile l) (hleads' : u.Leads path l) (hget : u.get? l = t.get? l) :
    read? path u = read? path t := by
  have hcontent : u.contentOf path = t.contentOf path := by
    rw [hleads.contentOf_eq hfile, hleads'.contentOf_eq (hfile.of_get?_eq hget),
      FileTree.contentAt, FileTree.contentAt, hget]
  rw [read?, read?, FileTree.textOf?, FileTree.textOf?, hcontent]

/-- Where there is no file nothing can be read. -/
theorem read?_of_nothing {path : Path} {t : FileTree} {l : Location} (hleads : t.Leads path l)
    (hnone : t.get? l = none) : read? path t = none := by
  have hfile : t.OnlyFile l := fun e he => by simp [hnone] at he
  rw [read?, FileTree.textOf?, hleads.contentOf_eq hfile, FileTree.contentAt, hnone]
  rfl

end Durable

end Sequence

namespace Sequences

open Sequence

variable {s s' : Sequences} {t t' u u' : FileTree} {today later : Date} {path : Path}
  {l : Location}

/-- The durable counters in force on a day. -/
def inForce (s : Sequences) (t : FileTree) (today : Date) : Durable :=
  (s.durableIn t today).on today

/-- The counters in force are all that a look at them shows, and it leaves them in memory. -/
theorem snapshot_inForce (s : Sequences) (t : FileTree) (today : Date) :
    (s.snapshot t today).1 = ⟨(s.inForce t today).daily.count, (s.inForce t today).storedNumber,
      s.sessionNumber⟩ ∧ (s.snapshot t today).2.durable = some (s.inForce t today) := by
  rw [snapshot_eq]
  exact ⟨rfl, rfl⟩

theorem inForce_of_some {d : Durable} (h : s.durable = some d) :
    s.inForce t today = d.on today := by
  rw [inForce, durableIn_of_some h]

theorem inForce_of_none (h : s.durable = none) :
    s.inForce t today = (Durable.inFile s.path t today).on today := by
  rw [inForce, durableIn_of_none h]
  rfl

theorem inForce_later (s : Sequences) (t : FileTree) (hday : ¬ later < today) :
    (s.inForce t today).on later = s.inForce t later := by
  cases hdurable : s.durable with
  | some d => rw [inForce_of_some hdurable, inForce_of_some hdurable, Durable.on_later _ hday]
  | none => rw [inForce_of_none hdurable, inForce_of_none hdurable, Durable.inFile_later _ _ hday]

/-- After a look the same counters are in force. -/
@[simp] theorem inForce_snapshot (s : Sequences) (t t' : FileTree) (today : Date) :
    (s.snapshot t today).2.inForce t' today = s.inForce t today := by
  rw [inForce_of_some (s.snapshot_inForce t today).2]
  exact Durable.on_on _ today

/-- A look that leaves nothing to write has found nothing to write, and has begun no day. -/
theorem clean_of_snapshot (hdurable : s.isDirty = true → s.durable.isSome)
    (h : (s.snapshot t today).2.isDirty = false) :
    s.isDirty = false ∧ s.inForce t today = s.durableIn t today := by
  rw [snapshot_eq] at h
  obtain ⟨hmark, hbegun⟩ := Bool.or_eq_false_iff.1 h
  have hday : (s.durableIn t today).daily.on today = (s.durableIn t today).daily := by
    simpa using hbegun
  refine ⟨?_, ?_⟩
  · cases hdirty : s.isDirty with
    | false => rfl
    | true => simp [hdirty, hdurable hdirty] at hmark
  · rw [inForce, Durable.on, hday]

/-! ## One sequence and its file -/

/-- Sequences that have nothing to write show what their file shows, and others have counters that
can be written and read back. -/
structure Faithful (path : Path) (s : Sequences) (t : FileTree) (today : Date) : Prop where
  samePath : s.path = path
  clean : s.isDirty = false → s.inForce t today = (Durable.inFile path t today).on today
  dirty : s.isDirty = true → ∃ d, s.durable = some d ∧ 0 ≤ d.daily.date.year
  words : ∀ d ∈ s.durable, d.InWords

theorem faithful_ofFile (path : Path) (t : FileTree) (today : Date) :
    (Sequences.ofFile path).Faithful path t today where
  samePath := rfl
  clean _ := inForce_of_none rfl
  dirty h := absurd h Bool.false_ne_true
  words d hd := by simp [ofFile] at hd

namespace Faithful

theorem isSome_of_dirty (h : s.Faithful path t today) (hdirty : s.isDirty = true) :
    s.durable.isSome := by
  obtain ⟨d, hd, -⟩ := h.dirty hdirty
  rw [hd]
  rfl

theorem inWords_inForce (h : s.Faithful path t today) : (s.inForce t today).InWords := by
  cases hdurable : s.durable with
  | some d =>
    rw [inForce_of_some hdurable]
    exact Durable.on_inWords (h.words d hdurable) today
  | none =>
    rw [inForce_of_none hdurable]
    exact Durable.on_inWords (Durable.inWords_inFile _ _ _) today

/-- They do so on every later day. -/
theorem mono (h : s.Faithful path t today) (hday : ¬ later < today) :
    s.Faithful path t later where
  samePath := h.samePath
  clean hclean := by
    rw [← inForce_later s t hday, h.clean hclean, Durable.inFile_later _ _ hday]
  dirty := h.dirty
  words := h.words

/-- They do so whatever happens to other files. -/
theorem elsewhere (h : s.Faithful path t today)
    (hread : Durable.read? path u = Durable.read? path t) : s.Faithful path u today where
  samePath := h.samePath
  clean hclean := by
    have hfile : Durable.inFile path u today = Durable.inFile path t today := by
      rw [Durable.inFile, hread, Durable.inFile]
    rw [hfile, ← h.clean hclean, inForce, inForce, durableIn, durableIn, h.samePath, hread]
  dirty := h.dirty
  words := h.words

theorem snapshot (h : s.Faithful path t today) (hyear : 0 ≤ today.year) :
    (s.snapshot t today).2.Faithful path t today where
  samePath := (path_snapshot s t today).trans h.samePath
  clean hclean := by
    rw [inForce_snapshot]
    exact h.clean (clean_of_snapshot h.isSome_of_dirty hclean).1
  dirty _ :=
    ⟨_, (s.snapshot_inForce t today).2, Int.le_trans hyear (Daily.year_le_on _ today)⟩
  words d hd := by
    rw [(s.snapshot_inForce t today).2] at hd
    obtain rfl := Option.some.inj hd
    exact h.inWords_inForce

theorem increment (h : s.Faithful path t today) (hyear : 0 ≤ today.year)
    (hwords : ∀ d ∈ (s.increment t today).durable, d.InWords) :
    (s.increment t today).Faithful path t today where
  samePath := (path_increment s t today).trans h.samePath
  clean hclean := by
    rw [increment_eq] at hclean
    exact absurd hclean (by simp)
  dirty _ := by
    rw [increment_eq]
    exact ⟨_, rfl, Int.le_trans hyear (Daily.year_le_on _ today)⟩
  words := hwords

/-- Saving where the path leads to the location succeeds.  It changes the file alone, if anything,
and then the file shows the counters in force. -/
theorem save (h : s.Faithful path t today) (hleads : t.Leads path l) (hfile : t.OnlyFile l)
    (hroom : t.room = none) :
    ∃ u, s.save t = (.ok (), { s with isDirty := false }, u) ∧
      Faithful path { s with isDirty := false } u today ∧
      (Durable.inFile path u today).on today = s.inForce t today ∧
      inForce { s with isDirty := false } u today = s.inForce t today ∧
      (s.isDirty = false ∧ u = t ∨ s.isDirty = true ∧ FileTree.Stored l t u) := by
  cases hdirty : s.isDirty with
  | false =>
    have hsame : { s with isDirty := false } = s := by rw [← hdirty]
    rw [hsame]
    exact ⟨t, save_of_clean hdirty t, h, (h.clean hdirty).symm, rfl, Or.inl ⟨rfl, rfl⟩⟩
  | true =>
    obtain ⟨d, hdurable, hyear⟩ := h.dirty hdirty
    have hfits : d.Fits := ⟨hyear, h.words d hdurable⟩
    obtain ⟨u, hput, hstored⟩ := FileAction.putFile_stores hleads hfile hroom d.fileText.toUTF8
    have hwrite : (d.write s.path).runOn t = (.ok (), u) := by
      rw [Durable.write_eq, h.samePath]
      exact hput
    have hread : Durable.read? path u = some d := by
      rw [← h.samePath]
      exact Durable.read?_write hfits hwrite
    have hforce : s.inForce t today = d.on today := inForce_of_some hdurable
    have hforce' : inForce { s with isDirty := false } u today = d.on today :=
      inForce_of_some hdurable
    have hshown : Durable.inFile path u today = d := by rw [Durable.inFile, hread, Option.getD_some]
    have hsave : s.save t = (.ok (), { s with isDirty := false }, u) := by
      simp [Sequences.save, hdurable, hdirty, hwrite]
    refine ⟨u, hsave, ⟨h.samePath, fun _ => ?_, fun h => absurd h Bool.false_ne_true, h.words⟩,
      by rw [hshown, hforce], by rw [hforce', hforce], Or.inr ⟨rfl, hstored⟩⟩
    rw [hforce', hshown]

end Faithful

theorem inForce_congr (s : Sequences) (today : Date)
    (hread : Durable.read? s.path u = Durable.read? s.path t) :
    s.inForce u today = s.inForce t today := by
  rw [inForce, inForce, durableIn, durableIn, hread]

/-! ## Two sequences -/

/-- The second sequences were asked for their counters more often than the first ones.  The counters
in force are the same, and so are those that the files show.  As long as the second ones have
written nothing and have nothing to write, neither have the first ones. -/
structure Twins (path : Path) (l : Location) (t t' : FileTree) (today : Date)
    (s s' : Sequences) : Prop where
  first : s.Faithful path t today
  second : s'.Faithful path t' today
  session : s'.sessionNumber = s.sessionNumber
  force : s'.inForce t' today = s.inForce t today
  files : (Durable.inFile path t' today).on today = (Durable.inFile path t today).on today
  unsaved : t'.get? l = none → s'.isDirty = false →
    s.isDirty = false ∧ (s.durable = none ∨ s.durable = s'.durable)

theorem twins_ofFile (path : Path) (l : Location) (t : FileTree) (today : Date) :
    Twins path l t t today (.ofFile path) (.ofFile path) :=
  ⟨faithful_ofFile path t today, faithful_ofFile path t today, rfl, rfl, rfl,
    fun _ _ => ⟨rfl, Or.inl rfl⟩⟩

namespace Twins

/-- Sequences stay twins from day to day. -/
theorem mono (h : Twins path l t t' today s s') (hday : ¬ later < today) :
    Twins path l t t' later s s' where
  first := h.first.mono hday
  second := h.second.mono hday
  session := h.session
  force := by rw [← inForce_later s' t' hday, h.force, inForce_later s t hday]
  files := by
    rw [← Durable.inFile_later path t' hday, h.files, Durable.inFile_later path t hday]
  unsaved := h.unsaved

/-- They stay twins whatever happens to other files. -/
theorem elsewhere (h : Twins path l t t' today s s')
    (hread : Durable.read? path u = Durable.read? path t)
    (hread' : Durable.read? path u' = Durable.read? path t')
    (hget : u'.get? l = t'.get? l) : Twins path l u u' today s s' where
  first := h.first.elsewhere hread
  second := h.second.elsewhere hread'
  session := h.session
  force := by
    rw [inForce_congr s' today (h.second.samePath ▸ hread'),
      inForce_congr s today (h.first.samePath ▸ hread), h.force]
  files := by
    rw [Durable.inFile, hread', Durable.inFile, hread]
    exact h.files
  unsaved hnone := h.unsaved (hget ▸ hnone)

/-- The second ones are asked once more. -/
theorem look (h : Twins path l t t' today s s') (hyear : 0 ≤ today.year) :
    Twins path l t t' today s (s'.snapshot t' today).2 where
  first := h.first
  second := h.second.snapshot hyear
  session := (sessionNumber_snapshot s' t' today).2.trans h.session
  force := (inForce_snapshot s' t' t' today).trans h.force
  files := h.files
  unsaved hnone hclean := by
    obtain ⟨hbefore, hbegun⟩ := clean_of_snapshot h.second.isSome_of_dirty hclean
    obtain ⟨hfirst, hnotLoaded | hsame⟩ := h.unsaved hnone hbefore
    · exact ⟨hfirst, Or.inl hnotLoaded⟩
    · refine ⟨hfirst, ?_⟩
      rw [(s'.snapshot_inForce t' today).2, hbegun, hsame]
      cases hdurable : s'.durable with
      | none => exact Or.inl rfl
      | some d => exact Or.inr (by rw [durableIn_of_some hdurable])

/-- Both are asked, and show the same. -/
theorem snapshot (h : Twins path l t t' today s s') (hyear : 0 ≤ today.year)
    (hempty : t'.get? l = none → Durable.read? path t = none) :
    (s'.snapshot t' today).1 = (s.snapshot t today).1 ∧
      Twins path l t t' today (s.snapshot t today).2 (s'.snapshot t' today).2 := by
  have hlooked := h.look hyear
  refine ⟨?_, ⟨h.first.snapshot hyear, hlooked.second, ?_, ?_, h.files, fun hnone hclean => ?_⟩⟩
  · rw [(s'.snapshot_inForce t' today).1, (s.snapshot_inForce t today).1, h.force, h.session]
  · rw [(sessionNumber_snapshot s t today).2]
    exact hlooked.session
  · rw [inForce_snapshot, inForce_snapshot, h.force]
  · obtain ⟨hfirst, hloaded⟩ := hlooked.unsaved hnone hclean
    have hforce : (s'.snapshot t' today).2.durable = some (s.inForce t today) := by
      rw [(s'.snapshot_inForce t' today).2, h.force]
    -- The first ones begin no day: they load the first counters, or have those in force.
    have hbegun : (s.durableIn t today).on today = s.durableIn t today := by
      rcases hloaded with hnotLoaded | hsame
      · rw [durableIn_of_none hnotLoaded, h.first.samePath, hempty hnone, Option.getD_none,
          Durable.on, Durable.first, Daily.on, if_neg (Date.lt_irrefl today)]
      · rw [durableIn_of_some (hsame.trans hforce), ← h.force]
        exact Durable.on_on _ today
    refine ⟨?_, Or.inr ((s.snapshot_inForce t today).2.trans hforce.symm)⟩
    have hdaily : (s.durableIn t today).daily.on today = (s.durableIn t today).daily :=
      congrArg Durable.daily hbegun
    rw [snapshot_eq]
    simp [hfirst, hdaily]

/-- Both count an image. -/
theorem increment (h : Twins path l t t' today s s') (hyear : 0 ≤ today.year)
    (hwords : ∀ d ∈ (s.increment t today).durable, d.InWords) :
    Twins path l t t' today (s.increment t today) (s'.increment t' today) := by
  have hdurable (s : Sequences) (t : FileTree) : (s.increment t today).durable =
      some ⟨{ (s.inForce t today).daily with count := (s.inForce t today).daily.count + 1 },
        (s.inForce t today).storedNumber + 1⟩ := by
    rw [increment_eq]
    rfl
  have hsame : (s'.increment t' today).durable = (s.increment t today).durable := by
    rw [hdurable, hdurable, h.force]
  refine ⟨h.first.increment hyear hwords, h.second.increment hyear (hsame ▸ hwords), ?_, ?_,
    h.files, fun _ hclean => ?_⟩
  · rw [sessionNumber_increment, sessionNumber_increment, h.session]
  · rw [inForce_of_some (hdurable s t), inForce_of_some (hsame.trans (hdurable s t))]
  · rw [increment_eq] at hclean
    exact absurd hclean (by simp)

/-- Both are saved, each if it has something to write. -/
theorem save (h : Twins path l t t' today s s') (htrees : FileTree.SameBut l t t')
    (hleads : t.Leads path l) :
    ∃ u u', s.save t = (.ok (), { s with isDirty := false }, u) ∧
      s'.save t' = (.ok (), { s' with isDirty := false }, u') ∧ FileTree.SameBut l u u' ∧
      u.Leads path l ∧
      Twins path l u u' today { s with isDirty := false } { s' with isDirty := false } := by
  obtain ⟨u, hsave, hfaithful, hfile, hforce, hu⟩ :=
    h.first.save hleads htrees.onlyFile htrees.room
  obtain ⟨u', hsave', hfaithful', hfile', hforce', hu'⟩ :=
    h.second.save (htrees.leads hleads) htrees.onlyFile' htrees.room'
  have hsecond : FileTree.SameBut l t u' := by
    rcases hu' with ⟨-, rfl⟩ | ⟨-, hstored⟩
    · exact htrees
    · exact htrees.stored hstored
  have hwritten : u'.get? l = none → s.isDirty = false ∧
      (s.durable = none ∨ s.durable = s'.durable) := by
    intro hnone
    rcases hu' with ⟨hclean, rfl⟩ | ⟨-, hstored⟩
    · exact h.unsaved hnone hclean
    · obtain ⟨content, modified, hthere⟩ := hstored.file
      simp [hthere] at hnone
  have hboth : FileTree.SameBut l u u' ∧ u.Leads path l := by
    rcases hu with ⟨-, rfl⟩ | ⟨hdirty, hstored⟩
    · exact ⟨hsecond, hleads⟩
    · have hself := FileTree.SameBut.refl htrees.wellFormed htrees.room htrees.onlyFile
      refine ⟨hsecond.stored_first hstored hleads fun hnone => ?_,
        (hself.stored hstored).leads hleads⟩
      have hclean := (hwritten hnone).1
      simp [hdirty] at hclean
  refine ⟨u, u', hsave, hsave', hboth.1, hboth.2, hfaithful, hfaithful', h.session, ?_, ?_,
    fun hnone _ => ⟨rfl, (hwritten hnone).2⟩⟩
  · rw [hforce', hforce, h.force]
  · rw [hfile', hfile, h.force]

/-- Fresh sequences on the two files show the same counters. -/
theorem fresh (h : Twins path l t t' today s s') :
    ((Sequences.ofFile path).snapshot t' today).1 =
      ((Sequences.ofFile path).snapshot t today).1 := by
  rw [(snapshot_inForce _ t' today).1, (snapshot_inForce _ t today).1, inForce_of_none rfl,
    inForce_of_none rfl]
  have hpath : (ofFile path).path = path := rfl
  rw [hpath, h.files]

end Twins

end Sequences

end PhotoIntake
