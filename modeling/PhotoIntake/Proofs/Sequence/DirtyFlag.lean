import PhotoIntake.Proofs.Sequence.Words
import Mathlib.Logic.Function.Iterate
import Mathlib.Logic.Relation

/-!
# The mark of unsaved counters

Sequences mark their counters when they have to be written.  The mark is set by hand wherever a
counter changes.  This module shows that it is right after any operations, in any order: counters
are marked if and only if they differ from those that were last loaded or saved with success, or so
many images were counted since that the words of the counters came around to the same values.

* `Ledger`: sequences and files, and beside them the counters that were last loaded or saved and
  the images counted since.
* `Tracked` is the invariant of all operations, `Tracked.step` carries it over one of them.
* `marked_iff_unsaved`: what the mark says after any operations, what a save that fails leaves, and
  what fresh sequences find after a save that succeeds.
* `marked_but_unchanged`: counters that came around are marked, and those that are loaded again
  after a save failed are not there to be written.
-/

namespace PhotoIntake

open Calendar (Date)
open Decimal (wordBound)
open Sequence (Daily Durable word word_of_lt word_add_eq_iff)

/-! ## Operations on sequences -/

/-- An operation on sequences, with the day that the clock shows. -/
inductive Operation where
  | load (today : Date)
  | downloadsToday (today : Date)
  | storedNumber (today : Date)
  | snapshot (today : Date)
  | increment (today : Date)
  | save
  | reopen
  deriving DecidableEq

/-- The day of an operation that looks at the clock. -/
def Operation.day? : Operation → Option Date
  | load today => some today
  | downloadsToday today => some today
  | storedNumber today => some today
  | snapshot today => some today
  | increment today => some today
  | save => none
  | reopen => none

/-- Sequences and files, with the counters that were last loaded or saved with success and the
number of images that were counted since. -/
structure Ledger where
  sequences : Sequences
  files : FileTree
  settled : Option Durable
  counted : Nat

namespace Ledger

/-- Fresh sequences, with nothing loaded. -/
def fresh (path : Path) (files : FileTree) : Ledger :=
  ⟨.ofFile path, files, none, 0⟩

/-- The counters are loaded. -/
def load (l : Ledger) (today : Date) : Ledger :=
  let s := l.sequences.load l.files today
  ⟨s, l.files, s.durable, 0⟩

/-- The counters are asked for: those that are not in memory are loaded. -/
def ask (l : Ledger) (today : Date) : Ledger :=
  if l.sequences.durable.isSome then l else l.load today

/-- The ledger after an operation.  The counters are words, which go on with zero behind the last
one. -/
def perform (l : Ledger) : Operation → Ledger
  | .load today => l.load today
  | .downloadsToday today =>
    { l.ask today with sequences := (l.sequences.downloadsToday l.files today).2 }
  | .storedNumber today =>
    { l.ask today with sequences := (l.sequences.storedNumber l.files today).2 }
  | .snapshot today => { l.ask today with sequences := (l.sequences.snapshot l.files today).2 }
  | .increment today =>
    { l.ask today with
      sequences := l.sequences.incrementWord l.files today
      counted := (l.ask today).counted + 1 }
  | .save =>
    match l.sequences.save l.files with
    | (.ok (), s, files) => ⟨s, files, s.durable, 0⟩
    | (.error _, s, files) => ⟨s, files, l.settled, l.counted⟩
  | .reopen => fresh l.sequences.path l.files

/-- The operation settles the counters: it reads them from the file or brings the file up to
date. -/
def Settles (l : Ledger) : Operation → Prop
  | .load _ => True
  | .reopen => True
  | .save => (l.sequences.save l.files).1 = .ok ()
  | _ => False

/-- One step: an operation on a day of year 0 or later, or a change of files that leaves the file of
the counters as it can be read. -/
inductive Step (may : Ledger → Operation → Prop) (l : Ledger) : Ledger → Prop where
  | operation (op : Operation) (hmay : may l op) (hday : ∀ day ∈ op.day?, 0 ≤ day.year) :
      Step may l (l.perform op)
  | elsewhere (files : FileTree)
      (hread : Durable.read? l.sequences.path files = Durable.read? l.sequences.path l.files) :
      Step may l { l with files }

/-- Any steps in turn. -/
abbrev Run (l l' : Ledger) : Prop :=
  Relation.ReflTransGen (Step fun _ _ => True) l l'

/-- Steps in turn of which none settles the counters. -/
abbrev Pending (l l' : Ledger) : Prop :=
  Relation.ReflTransGen (Step fun l op => ¬ l.Settles op) l l'

/-! ## The invariant -/

/-- Counters without the mark are those that were last loaded or saved, and those of the file as it
is now; counters with the mark are what a later day or some images made of those, and they are of a
day that can be written.  All of them are words. -/
structure Tracked (path : Path) (l : Ledger) : Prop where
  samePath : l.sequences.path = path
  words : ∀ d ∈ l.sequences.durable, d.InWords
  clean : l.sequences.isDirty = false → l.sequences.durable = l.settled ∧ l.counted = 0 ∧
    ∀ d ∈ l.sequences.durable, ∃ today, d = Durable.inFile path l.files today
  dirty : l.sequences.isDirty = true → ∃ d d', l.sequences.durable = some d ∧
    l.settled = some d' ∧ d'.InWords ∧ d.CountedSince d' l.counted ∧
    (d'.daily.date < d.daily.date ∨ 0 < l.counted) ∧ 0 ≤ d.daily.date.year

variable {path : Path} {l l' : Ledger} {today : Date} {d d' : Durable}

theorem tracked_fresh (path : Path) (files : FileTree) : (fresh path files).Tracked path where
  samePath := rfl
  words _ h := by simp [fresh, Sequences.ofFile] at h
  clean _ := ⟨rfl, rfl, fun _ h => by simp [fresh, Sequences.ofFile] at h⟩
  dirty h := absurd h Bool.false_ne_true

theorem ask_of_some (h : l.sequences.durable = some d) (today : Date) : l.ask today = l := by
  rw [ask, h, Option.isSome_some, if_pos rfl]

theorem ask_of_none (h : l.sequences.durable = none) (today : Date) :
    l.ask today = l.load today := by
  rw [ask, h, Option.isSome_none, if_neg Bool.false_ne_true]

/-- Asking for the counters is what every operation on them begins with. -/
theorem sequences_ask (l : Ledger) (today : Date) :
    (l.ask today).sequences = (l.sequences.loaded l.files today).2 := by
  unfold Sequences.loaded
  cases hdurable : l.sequences.durable with
  | some d => rw [ask_of_some hdurable]
  | none =>
    rw [ask_of_none hdurable]
    rfl

namespace Tracked

/-- The mark is right where the ledger is tracked. -/
theorem isDirty_iff (h : l.Tracked path) :
    l.sequences.isDirty = true ↔
      l.sequences.durable ≠ l.settled ∨ 0 < l.counted ∧ wordBound 32 ∣ l.counted := by
  constructor
  · intro hdirty
    obtain ⟨d, d', hdurable, hsettled, hwords, hsince, hchange, -⟩ := h.dirty hdirty
    rw [hdurable, hsettled, ne_eq, Option.some.injEq, hsince.eq_iff hwords]
    rcases hchange with hlater | hcounted
    · exact Or.inl fun hsame => hsame.1 hlater
    · by_cases hmultiple : wordBound 32 ∣ l.counted
      · exact Or.inr ⟨hcounted, hmultiple⟩
      · exact Or.inl fun hsame => hmultiple hsame.2
  · intro hchange
    by_contra hclean
    obtain ⟨hsame, hnone, -⟩ := h.clean (Bool.eq_false_iff.2 hclean)
    rcases hchange with hdiffers | ⟨hcounted, -⟩
    · exact hdiffers hsame
    · omega

theorem load (h : l.Tracked path) (today : Date) : (l.load today).Tracked path where
  samePath := h.samePath
  words d hd := by
    obtain rfl := Option.some.inj hd
    exact Durable.inWords_inFile _ _ _
  clean _ := by
    refine ⟨rfl, rfl, fun d hd => ⟨today, ?_⟩⟩
    rw [← h.samePath]
    exact (Option.some.inj hd).symm
  dirty hdirty := absurd hdirty Bool.false_ne_true

/-- After the counters were asked for they are in memory, and as right as before. -/
theorem ask (h : l.Tracked path) (today : Date) :
    (l.ask today).Tracked path ∧
      (l.ask today).sequences.durable = some (l.sequences.durableIn l.files today) := by
  cases hdurable : l.sequences.durable with
  | some d =>
    rw [ask_of_some hdurable, Sequences.durableIn_of_some hdurable]
    exact ⟨h, hdurable⟩
  | none =>
    rw [ask_of_none hdurable, Sequences.durableIn_of_none hdurable]
    exact ⟨h.load today, rfl⟩

/-- Counters that change by a later day or by images are marked, and they come from those that were
last loaded or saved as before. -/
theorem forward (h : l.Tracked path) {images : Nat} (hdurable : l.sequences.durable = some d)
    (hsince : d'.CountedSince d images) (hwords : d'.InWords)
    (hchange : d.daily.date < d'.daily.date ∨ 0 < images) (hyear : 0 ≤ d'.daily.date.year)
    (sessionNumber : Nat) :
    Tracked path { l with
      sequences := ⟨l.sequences.path, some d', sessionNumber, true⟩
      counted := l.counted + images } where
  samePath := h.samePath
  words d₁ hd₁ := by rwa [← Option.some.inj hd₁]
  clean hclean := absurd hclean.symm Bool.false_ne_true
  dirty _ := by
    cases hmark : l.sequences.isDirty with
    | true =>
      obtain ⟨d₁, d₂, hdurable₁, hsettled, hwords₂, hsince₁, hchange₁, -⟩ := h.dirty hmark
      obtain rfl : d = d₁ := Option.some.inj (hdurable.symm.trans hdurable₁)
      have hsince₂ := hsince.trans hsince₁
      refine ⟨d', d₂, rfl, hsettled, hwords₂, hsince₂, ?_, hyear⟩
      -- Either something was counted, or a later day began before or now.
      rcases hchange₁ with hlater₁ | hcounted
      · rcases hsince.daily with hlater | ⟨hsame, -⟩
        · exact Or.inl (Date.lt_trans hlater₁ hlater)
        · exact Or.inl (by rwa [hsame])
      · exact Or.inr (Nat.add_pos_left hcounted _)
    | false =>
      obtain ⟨hsame, hnone, -⟩ := h.clean hmark
      have hsettled : l.settled = some d := hsame ▸ hdurable
      refine ⟨d', d, rfl, hsettled, h.words d hdurable, ?_, ?_, hyear⟩
      · rwa [hnone, Nat.zero_add]
      · rwa [hnone, Nat.zero_add]

/-- A look at the count of the day begins the day if it is a new one. -/
theorem downloadsToday (h : l.Tracked path) (htoday : 0 ≤ today.year) :
    (l.perform (.downloadsToday today)).Tracked path := by
  obtain ⟨hasked, hdurable⟩ := h.ask today
  let d := l.sequences.durableIn l.files today
  have hsequences : (l.sequences.downloadsToday l.files today).2 =
      ⟨(l.ask today).sequences.path, some (d.on today), (l.ask today).sequences.sessionNumber,
        (l.ask today).sequences.isDirty || d.daily.on today != d.daily⟩ := by
    rw [sequences_ask, Sequences.loaded_eq, Sequences.downloadsToday_eq]
    rfl
  have hperform : l.perform (.downloadsToday today) =
      { l.ask today with sequences := (l.sequences.downloadsToday l.files today).2 } := rfl
  rw [hperform, hsequences]
  rcases d.daily.on_cases today with hsame | ⟨hlater, hon⟩
  · have hrest : (⟨(l.ask today).sequences.path, some (d.on today),
        (l.ask today).sequences.sessionNumber,
        (l.ask today).sequences.isDirty || d.daily.on today != d.daily⟩ : Sequences) =
          (l.ask today).sequences := by
      rw [Durable.on, hsame, bne_self_eq_false, Bool.or_false]
      exact congrArg (fun durable => { (l.ask today).sequences with durable }) hdurable.symm
    rw [hrest]
    exact hasked
  · have hwords : d.InWords := hasked.words d hdurable
    have hchange : d.daily.date < (d.on today).daily.date := by
      rw [Durable.on, hon]
      exact hlater
    have hmark : (d.daily.on today != d.daily) = true := by
      rw [bne_iff_ne]
      intro hsame
      rw [Durable.on, hsame] at hchange
      exact Date.lt_irrefl _ hchange
    rw [hmark, Bool.or_true]
    exact hasked.forward hdurable (.on hwords today) (Durable.on_inWords hwords today)
      (Or.inl hchange) (Int.le_trans htoday (Daily.year_le_on _ today)) _

/-- All counters are looked at in the state in which the count of the day is. -/
theorem snapshot (h : l.Tracked path) (htoday : 0 ≤ today.year) :
    (l.perform (.snapshot today)).Tracked path := by
  have hsame : l.perform (.snapshot today) = l.perform (.downloadsToday today) := rfl
  rw [hsame]
  exact h.downloadsToday htoday

theorem storedNumber (h : l.Tracked path) (today : Date) :
    (l.perform (.storedNumber today)).Tracked path := by
  have hsame : l.perform (.storedNumber today) = l.ask today := by
    show { l.ask today with sequences := (l.sequences.loaded l.files today).2 } = l.ask today
    rw [← sequences_ask]
  rw [hsame]
  exact (h.ask today).1

theorem increment (h : l.Tracked path) (htoday : 0 ≤ today.year) :
    (l.perform (.increment today)).Tracked path := by
  obtain ⟨hasked, hdurable⟩ := h.ask today
  let d := l.sequences.durableIn l.files today
  have hsequences : l.sequences.incrementWord l.files today =
      ⟨(l.ask today).sequences.path,
        some (Durable.toWords ⟨d.daily.increment today, d.storedNumber + 1⟩),
        word ((l.ask today).sequences.sessionNumber + 1), true⟩ := by
    rw [sequences_ask, Sequences.loaded_eq, Sequences.incrementWord_eq]
  have hperform : l.perform (.increment today) =
      { l.ask today with
        sequences := l.sequences.incrementWord l.files today
        counted := (l.ask today).counted + 1 } := rfl
  rw [hperform, hsequences]
  exact hasked.forward hdurable (.increment d today) (Durable.inWords_toWords _)
    (Or.inr Nat.zero_lt_one) (Int.le_trans htoday (Daily.year_le_on _ today)) _

/-- A save writes what is marked and takes the mark off, or it changes the files alone. -/
theorem save_cases (h : l.Tracked path) :
    (l.sequences.isDirty = false ∧ l.sequences.save l.files = (.ok (), l.sequences, l.files)) ∨
    l.sequences.isDirty = true ∧ ∃ d files, l.sequences.durable = some d ∧
      (l.sequences.save l.files = (.ok (), { l.sequences with isDirty := false }, files) ∧
        Durable.read? path files = some d ∨
      ∃ e, l.sequences.save l.files = (.error e, l.sequences, files)) := by
  cases hmark : l.sequences.isDirty with
  | false => exact Or.inl ⟨rfl, Sequences.save_of_clean hmark l.files⟩
  | true =>
    obtain ⟨d, d', hdurable, -, -, -, -, hyear⟩ := h.dirty hmark
    rcases Sequences.save_of_dirty hdurable hmark l.files with
      ⟨files, hwrite, hsave⟩ | ⟨cause, files, -, hsave⟩
    · refine Or.inr ⟨rfl, d, files, hdurable, Or.inl ⟨hsave, ?_⟩⟩
      rw [← h.samePath]
      exact Durable.read?_write ⟨hyear, h.words d hdurable⟩ hwrite
    · exact Or.inr ⟨rfl, d, files, hdurable, Or.inr ⟨_, hsave⟩⟩

/-- Marked counters are in the file after a save that succeeds. -/
theorem read?_save (h : l.Tracked path) (hmark : l.sequences.isDirty = true)
    (hsaved : (l.sequences.save l.files).1 = .ok ()) :
    Durable.read? path (l.sequences.save l.files).2.2 = l.sequences.durable := by
  rcases h.save_cases with ⟨hclean, -⟩ | ⟨-, d, files, hdurable, ⟨hsave, hread⟩ | ⟨e, hsave⟩⟩
  · simp [hmark] at hclean
  · rw [hsave, hdurable]
    exact hread
  · simp [hsave] at hsaved

/-- A save that succeeds takes the mark off and changes no counter, and they are settled by it. -/
theorem save_eq (h : l.Tracked path) (hsaved : (l.sequences.save l.files).1 = .ok ()) :
    (l.sequences.save l.files).2.1 = { l.sequences with isDirty := false } ∧
      l.perform .save = ⟨(l.sequences.save l.files).2.1, (l.sequences.save l.files).2.2,
        l.sequences.durable, 0⟩ := by
  unfold perform
  rcases h.save_cases with ⟨hclean, hsave⟩ | ⟨-, d, files, -, ⟨hsave, -⟩ | ⟨e, hsave⟩⟩
  · rw [hsave, ← hclean]
    exact ⟨rfl, rfl⟩
  · rw [hsave]
    exact ⟨rfl, rfl⟩
  · simp [hsave] at hsaved

/-- A save that fails changes nothing in memory, and the mark is there to be written later. -/
theorem save_error (h : l.Tracked path) {e : IntakeError}
    (hfailed : (l.sequences.save l.files).1 = .error e) :
    (l.sequences.save l.files).2.1 = l.sequences ∧ l.sequences.isDirty = true ∧
      l.perform .save = { l with files := (l.sequences.save l.files).2.2 } := by
  unfold perform
  rcases h.save_cases with ⟨-, hsave⟩ | ⟨hmark, d, files, -, ⟨hsave, -⟩ | ⟨_, hsave⟩⟩
  · simp [hsave] at hfailed
  · simp [hsave] at hfailed
  · rw [hsave]
    exact ⟨rfl, hmark, rfl⟩

theorem save (h : l.Tracked path) : (l.perform .save).Tracked path := by
  unfold perform
  rcases h.save_cases with
    ⟨hmark, hsave⟩ | ⟨hmark, d, files, hdurable, ⟨hsave, hread⟩ | ⟨e, hsave⟩⟩
  · rw [hsave]
    exact ⟨h.samePath, h.words, fun _ => ⟨rfl, rfl, (h.clean hmark).2.2⟩,
      fun hdirty => by simp [hmark] at hdirty⟩
  · rw [hsave]
    refine ⟨h.samePath, h.words, fun _ => ⟨rfl, rfl, fun d₁ hd₁ => ⟨.epoch, ?_⟩⟩,
      fun hdirty => absurd hdirty Bool.false_ne_true⟩
    obtain rfl : d = d₁ := Option.some.inj (hdurable.symm.trans hd₁)
    rw [Durable.inFile, hread, Option.getD_some]
  · rw [hsave]
    exact ⟨h.samePath, h.words, fun hclean => by simp [hmark] at hclean, h.dirty⟩

/-- One step keeps the ledger tracked. -/
theorem step {may : Ledger → Operation → Prop} (h : l.Tracked path) (hstep : Step may l l') :
    l'.Tracked path := by
  cases hstep with
  | operation op _ hday =>
    cases op with
    | load today => exact h.load today
    | downloadsToday today => exact h.downloadsToday (hday today rfl)
    | storedNumber today => exact h.storedNumber today
    | snapshot today => exact h.snapshot (hday today rfl)
    | increment today => exact h.increment (hday today rfl)
    | save => exact h.save
    | reopen =>
      rw [← h.samePath]
      exact tracked_fresh l.sequences.path l.files
  | elsewhere files hread =>
    refine ⟨h.samePath, h.words, fun hclean => ?_, h.dirty⟩
    obtain ⟨hsame, hnone, hkept⟩ := h.clean hclean
    rw [h.samePath] at hread
    simp only [Durable.inFile, hread]
    exact ⟨hsame, hnone, hkept⟩

/-- So does any number of them. -/
theorem steps {may : Ledger → Operation → Prop} (h : l.Tracked path)
    (hsteps : Relation.ReflTransGen (Step may) l l') : l'.Tracked path := by
  induction hsteps with
  | refl => exact h
  | tail _ hstep ih => exact ih.step hstep

/-- Marked counters stay marked until something settles them. -/
theorem pending (h : l.Tracked path) (hmark : l.sequences.isDirty = true)
    (hpending : l.Pending l') : l'.sequences.isDirty = true := by
  induction hpending with
  | refl => exact hmark
  | @tail l₁ l₂ hsteps hstep hmark₁ =>
    obtain ⟨d, d', hdurable, -⟩ := (h.steps hsteps).dirty hmark₁
    cases hstep with
    | elsewhere files _ => exact hmark₁
    | operation op hmay _ =>
      cases op with
      | load today => exact absurd trivial hmay
      | reopen => exact absurd trivial hmay
      | save =>
        cases hresult : (l₁.sequences.save l₁.files).1 with
        | ok => exact absurd hresult hmay
        | error e =>
          obtain ⟨-, -, hsave⟩ := (h.steps hsteps).save_error hresult
          rw [hsave]
          exact hmark₁
      | _ =>
        simp [perform, Sequences.snapshot, Sequences.downloadsToday, Sequences.storedNumber,
          Sequences.incrementWord, Sequences.increment, Sequences.loaded, hdurable, hmark₁]

/-- Where there is no mark, fresh sequences show the same counters on every day, but for the session
number, which starts again. -/
theorem snapshot_fresh (h : l.Tracked path) (hclean : l.sequences.isDirty = false)
    (today : Date) :
    ((Sequences.ofFile path).snapshot l.files today).1 =
      { (l.sequences.snapshot l.files today).1 with sessionNumber := 1 } := by
  rw [Sequences.snapshot_eq, Sequences.snapshot_eq]
  cases hdurable : l.sequences.durable with
  | none =>
    rw [Sequences.durableIn_of_none hdurable, h.samePath]
    rfl
  | some d =>
    obtain ⟨first, hd⟩ := (h.clean hclean).2.2 d hdurable
    rw [Sequences.durableIn_of_some hdurable, Sequences.durableIn_of_none rfl, hd,
      Durable.inFile]
    cases hread : Durable.read? path l.files with
    | some d' => simp [Sequences.ofFile, hread]
    | none =>
      -- Nothing can be read: the count is zero on every day, whichever day the counters began on.
      have hzero (day : Date) : ((⟨day, 0⟩ : Daily).on today).count = 0 := by
        rcases (⟨day, 0⟩ : Daily).on_cases today with hsame | ⟨-, hon⟩
        · rw [hsame]
        · rw [hon]
      simp [Sequences.ofFile, hread, Durable.first, hzero]

end Tracked

/-! ## What the mark says -/

/-- After any operations on any days from year 0 on, where only saves write the file: counters are
marked if and only if they differ from those that were last loaded or saved with success, or the
images counted since are a multiple of the number of words, behind which the counters come around.
A save that fails changes nothing in memory and leaves the mark, which stays until the counters are
loaded or saved, and the next save that succeeds writes them as they are then.  After a save that
succeeds, fresh sequences on the file show the same counters on every day, and the session
number 1. -/
theorem marked_iff_unsaved (path : Path) (files : FileTree) (l : Ledger)
    (hrun : (fresh path files).Run l) :
    let s := l.sequences
    let saved := s.save l.files
    (s.isDirty = true ↔
      s.durable ≠ l.settled ∨ 0 < l.counted ∧ wordBound 32 ∣ l.counted) ∧
    (∀ e, saved.1 = .error e → saved.2.1 = s ∧ s.isDirty = true ∧
      ∀ l', (l.perform .save).Pending l' → l'.sequences.isDirty = true ∧
        ((l'.sequences.save l'.files).1 = .ok () →
          Durable.read? path (l'.sequences.save l'.files).2.2 = l'.sequences.durable)) ∧
    (saved.1 = .ok () → saved.2.1 = { s with isDirty := false } ∧
      ∀ today, ((Sequences.ofFile path).snapshot saved.2.2 today).1 =
        { (saved.2.1.snapshot saved.2.2 today).1 with sessionNumber := 1 }) := by
  intro s saved
  have htracked : l.Tracked path := (tracked_fresh path files).steps hrun
  refine ⟨htracked.isDirty_iff, fun e hfailed => ?_, fun hsaved => ?_⟩
  · obtain ⟨hkept, hmark, hsave⟩ := htracked.save_error hfailed
    refine ⟨hkept, hmark, fun l' hpending => ?_⟩
    have hmark' : (l.perform .save).sequences.isDirty = true := by rwa [hsave]
    have hpended := htracked.save.pending hmark' hpending
    exact ⟨hpended, (htracked.save.steps hpending).read?_save hpended⟩
  · obtain ⟨hclean, hsave⟩ := htracked.save_eq hsaved
    have hfresh := htracked.save.snapshot_fresh
    rw [hsave] at hfresh
    exact ⟨hclean, hfresh (by rw [hclean])⟩

/-- On a full device the count of an image cannot be saved; once there is room, it is. -/
theorem marked_iff_unsaved_sample :
    let full : FileTree := { entries := [], working := [], room := some 0, clock := 1 }
    let l := ((fresh ⟨"s.json"⟩ full).perform (.snapshot .epoch)).perform (.increment .epoch)
    let l' : Ledger := { l.perform .save with files := { full with room := none } }
    l.sequences.isDirty = true ∧ l'.sequences.isDirty = true ∧
      Durable.read? ⟨"s.json"⟩ (l'.sequences.save l'.files).2.2 = some ⟨⟨.epoch, 1⟩, 2⟩ := by
  intro full l l'
  have hday : ∀ day ∈ some Date.epoch, 0 ≤ day.year := by simp [Date.epoch]
  have hrun : (fresh ⟨"s.json"⟩ full).Run l :=
    (Relation.ReflTransGen.single (.operation (.snapshot .epoch) trivial hday)).tail
      (.operation (.increment .epoch) trivial hday)
  have hpending : (l.perform .save).Pending l' :=
    .single (.elsewhere { full with room := none } (by decide +kernel))
  obtain ⟨hmark, hfailed, -⟩ := marked_iff_unsaved ⟨"s.json"⟩ full l hrun
  obtain ⟨-, -, hlater⟩ :=
    hfailed (.sequencesSave ⟨"s.json"⟩ .noRoom) (by decide +kernel)
  obtain ⟨hmark', hwritten⟩ := hlater l' hpending
  have hread := hwritten (by decide +kernel)
  exact ⟨hmark.2 (Or.inl (by decide +kernel)), hmark', hread.trans (by decide +kernel)⟩

/-! ## Where the mark says more, and where it is lost -/

/-- Images that are counted on one day. -/
def countImages (l : Ledger) (today : Date) (images : Nat) : Ledger :=
  (perform · (.increment today))^[images] l

theorem countImages_succ (l : Ledger) (today : Date) (images : Nat) :
    l.countImages today (images + 1) = (l.countImages today images).perform (.increment today) :=
  Function.iterate_succ_apply' _ _ _

theorem run_countImages (htoday : 0 ≤ today.year) (l : Ledger) (images : Nat) :
    l.Run (l.countImages today images) := by
  induction images with
  | zero => exact .refl
  | succ images ih =>
    rw [countImages_succ]
    refine ih.tail (.operation _ trivial fun day hday => ?_)
    rwa [← Option.some.inj hday]

/-- The counters go on by the images, and what they are compared with stays. -/
theorem countImages_eq (hdurable : l.sequences.durable = some d) (hwords : d.InWords)
    (hdate : d.daily.date = today) (images : Nat) :
    (l.countImages today images).sequences.durable =
      some ⟨⟨today, word (d.daily.count + images)⟩, word (d.storedNumber + images)⟩ ∧
    (l.countImages today images).settled = l.settled ∧
    (0 < images → (l.countImages today images).sequences.isDirty = true) := by
  induction images with
  | zero =>
    refine ⟨?_, rfl, fun h => absurd h (Nat.lt_irrefl 0)⟩
    show l.sequences.durable = _
    rw [hdurable, Nat.add_zero, Nat.add_zero, word_of_lt hwords.1, word_of_lt hwords.2, ← hdate]
  | succ images ih =>
    obtain ⟨hbefore, hsettled, -⟩ := ih
    rw [countImages_succ, perform, ask_of_some hbefore, Sequences.incrementWord_eq,
      Sequences.durableIn_of_some hbefore]
    refine ⟨?_, hsettled, fun _ => rfl⟩
    simp [Durable.toWords, Daily.increment, Daily.on, Date.lt_irrefl, Nat.add_assoc]

/-- Where the images of a day are a multiple of the number of words, the counters came around to
those that were settled, and they are marked. -/
theorem marked_around (hdurable : l.sequences.durable = some d) (hsettled : l.settled = some d)
    (hwords : d.InWords) (hdate : d.daily.date = today) {images : Nat} (hsome : 0 < images)
    (hmultiple : wordBound 32 ∣ images) :
    (l.countImages today images).sequences.isDirty = true ∧
      (l.countImages today images).sequences.durable =
        (l.countImages today images).settled := by
  obtain ⟨haround, hkept, hmark⟩ := countImages_eq hdurable hwords hdate images
  refine ⟨hmark hsome, ?_⟩
  rw [haround, hkept, hsettled, (word_add_eq_iff hwords.1).2 hmultiple,
    (word_add_eq_iff hwords.2).2 hmultiple, ← hdate]

/-- After as many images on one day as there are words, the counters are those that were loaded, and
they are marked.  On a full device the count of an image cannot be saved; if the counters are loaded
again before there is room, the next save succeeds and the image is not counted in the file. -/
theorem marked_but_unchanged :
    let full : FileTree := { entries := [], working := [], room := some 0, clock := 1 }
    let loaded := (fresh ⟨"s.json"⟩ full).perform (.load .epoch)
    let counted := loaded.perform (.increment .epoch)
    let failed := counted.perform .save
    let again : Ledger :=
      { failed.perform (.load .epoch) with files := { failed.files with room := none } }
    ((fresh ⟨"s.json"⟩ full).Run (loaded.countImages .epoch (wordBound 32)) ∧
      (loaded.countImages .epoch (wordBound 32)).sequences.isDirty = true ∧
      (loaded.countImages .epoch (wordBound 32)).sequences.durable =
        (loaded.countImages .epoch (wordBound 32)).settled) ∧
    (fresh ⟨"s.json"⟩ full).Run again ∧
      counted.sequences.durable = some ⟨⟨.epoch, 1⟩, 2⟩ ∧
      (counted.sequences.save counted.files).1 ≠ .ok () ∧
      (again.sequences.save again.files).1 = .ok () ∧
      Durable.read? ⟨"s.json"⟩ (again.sequences.save again.files).2.2 = none := by
  intro full loaded counted failed again
  have hday : ∀ day ∈ some Date.epoch, 0 ≤ day.year := by simp [Date.epoch]
  have hrun : (fresh ⟨"s.json"⟩ full).Run loaded :=
    .single (.operation (.load .epoch) trivial hday)
  have hagain : loaded.Run again :=
    (((Relation.ReflTransGen.single (.operation (.increment .epoch) trivial hday)).tail
      (.operation .save trivial (by simp [Operation.day?]))).tail
      (.operation (.load .epoch) trivial hday)).tail
      (.elsewhere { failed.files with room := none } (by decide +kernel))
  have hloaded : loaded.sequences.durable = some (.first .epoch) := by decide +kernel
  have hdate : (Durable.first .epoch).daily.date = .epoch := rfl
  have hmarked := marked_around hloaded hloaded (by decide) hdate
    (show 0 < wordBound 32 by decide +kernel) (Nat.dvd_refl _)
  exact ⟨⟨hrun.trans (run_countImages (by decide) loaded _), hmarked⟩, hrun.trans hagain,
    by decide +kernel, by decide +kernel, by decide +kernel, by decide +kernel⟩

end Ledger

end PhotoIntake
