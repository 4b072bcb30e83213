import PhotoIntake.Proofs.Source.Batches

/-!
# How a scan is interrupted

The stop flag can be raised and the receiver can go away at any moment, but a scan looks at the flag
once for every entry of its walk, before anything else.  So it notices a raised flag at the next
entry, if there is one; until then it is busy with the entry in hand.

* `Recorded` and `recorded`: surroundings that record what a scan does, and the flag after it.
* `Moves` and `Proceeds`: the automaton of a scan, and its runs.
* `scanRest_follows`: what is recorded is a run of the automaton, which ends where it stops if and
  only if the scan does.
* `interruption_ends_scan`: what follows a moment at which the scan was interrupted, and a moment at
  which the flag was raised.
-/

namespace PhotoIntake.Scan

variable {σ : Type} {w : Surroundings σ} {raised : σ → Bool} {size : Nat}

/-! ## The record of a scan -/

/-- What a scan does to its surroundings. -/
inductive Action where
  | polled (stop : Bool)
  | looked
  | handed (call : Call)

/-- Something that a scan has done, and whether the flag was up when it was done. -/
structure Moment where
  action : Action
  up : Bool

namespace Moment

/-- The batch that was handed out. -/
def batch? (m : Moment) : Option (List Found) :=
  match m.action with
  | .handed call => some call.batch
  | _ => none

/-- The flag was looked at. -/
def IsPoll (m : Moment) : Prop :=
  ∃ stop, m.action = .polled stop

/-- The flag was found raised, or a full batch was refused. -/
def Interrupts (size : Nat) (m : Moment) : Prop :=
  m.action = .polled true ∨
    ∃ call, m.action = .handed call ∧ call.batch.length = size ∧ call.accepted = false

/-- The flag was up, or a batch was refused. -/
def IsDisturbed (m : Moment) : Prop :=
  m.up = true ∨ ∃ call, m.action = .handed call ∧ call.accepted = false

end Moment

/-- The state of the surroundings with what was done to them. -/
structure Recorded (σ : Type) where
  env : σ
  moments : List Moment

/-- One moment more. -/
def Recorded.note (l : Recorded σ) (raised : σ → Bool) (action : Action) (env : σ) : Recorded σ :=
  ⟨env, l.moments ++ [⟨action, raised env⟩]⟩

/-- The surroundings with a record. -/
def recorded (w : Surroundings σ) (raised : σ → Bool) : Surroundings (Recorded σ) where
  isStopped l :=
    let (stop, env) := w.isStopped l.env
    (stop, l.note raised (.polled stop) env)
  lookup l p :=
    let (downloaded, env) := w.lookup l.env p
    (downloaded, l.note raised .looked env)
  receive l number batch :=
    let (accepted, env) := w.receive l.env number batch
    (accepted, l.note raised (.handed ⟨number, batch, accepted⟩) env)

/-- The scan does not notice the record. -/
theorem shadows_recorded (w : Surroundings σ) (raised : σ → Bool) :
    Shadows (recorded w raised) w Recorded.env where
  isStopped _ := rfl
  lookup _ _ := rfl
  receive _ _ _ := rfl

/-- The flag is never lowered, and a look at it finds it as it is. -/
structure Sticky (w : Surroundings σ) (raised : σ → Bool) : Prop where
  found : ∀ env, raised env = true → (w.isStopped env).1 = true
  isUp : ∀ env, (w.isStopped env).1 = true → raised (w.isStopped env).2 = true
  lookup : ∀ env p, raised env = true → raised (w.lookup env p).2 = true
  receive : ∀ env number batch, raised env = true → raised (w.receive env number batch).2 = true

/-! ## The automaton of a scan -/

/-- How far a scan is with the entry in hand. -/
inductive Phase where
  | ready
  | passing
  | filling
  | stopped
  | ended

/-- The scan goes on. -/
def Phase.IsOpen : Phase → Prop
  | ready | passing | filling => True
  | stopped | ended => False

/-- What a scan can do in a phase, with the flag up or not, and the phase it comes to. -/
inductive Moves (size : Nat) : Phase → Bool → Moment → Phase → Prop where
  | lowered {p : Phase} {up : Bool} (hopen : p.IsOpen) :
      Moves size p false ⟨.polled false, up⟩ .passing
  | raised {p : Phase} {up : Bool} (hopen : p.IsOpen) :
      Moves size p up ⟨.polled true, true⟩ .stopped
  | looked {up up' : Bool} (hup : up = true → up' = true) :
      Moves size .passing up ⟨.looked, up'⟩ .filling
  | sent {up up' : Bool} {call : Call} (hfull : call.batch.length = size)
      (haccepted : call.accepted = true) (hup : up = true → up' = true) :
      Moves size .filling up ⟨.handed call, up'⟩ .ready
  | refused {up up' : Bool} {call : Call} (hfull : call.batch.length = size)
      (hrefused : call.accepted = false) : Moves size .filling up ⟨.handed call, up'⟩ .stopped
  | remainder {p : Phase} {up up' : Bool} {call : Call} (hopen : p.IsOpen)
      (hpart : call.batch.length < size) : Moves size p up ⟨.handed call, up'⟩ .ended

theorem Moves.isOpen {p q : Phase} {up : Bool} {m : Moment} (h : Moves size p up m q) :
    p.IsOpen := by
  cases h with
  | lowered hopen => exact hopen
  | raised hopen => exact hopen
  | remainder hopen _ => exact hopen
  | _ => trivial

/-- What a scan can do from a phase on, one moment after the other. -/
inductive Proceeds (size : Nat) : Phase → Bool → List Moment → Phase → Prop where
  | nil {p : Phase} {up : Bool} : Proceeds size p up [] p
  | cons {p q r : Phase} {up : Bool} {m : Moment} {rest : List Moment} (first : Moves size p up m q)
      (later : Proceeds size q m.up rest r) : Proceeds size p up (m :: rest) r

/-- Whether the flag is up after some moments. -/
def flagAfter (up : Bool) : List Moment → Bool
  | [] => up
  | m :: rest => flagAfter m.up rest

/-- What is left of the entry in hand, at most a look-up and a full batch, and the look at the flag
that finds it raised. -/
def FinishesEntry (size : Nat) (after : List Moment) : Prop :=
  ∃ looked handed : List Moment, after = looked ++ handed ++ [⟨.polled true, true⟩] ∧
    looked.length ≤ 1 ∧ (∀ m ∈ looked, m.action = .looked) ∧
    handed.length ≤ 1 ∧ ∀ m ∈ handed, ∃ call, m.action = .handed call ∧ call.batch.length = size

namespace Proceeds

variable {p q : Phase} {up : Bool} {moments before after : List Moment} {m : Moment}

/-- A run can be cut anywhere. -/
theorem split (h : Proceeds size p up (before ++ after) q) :
    ∃ p', Proceeds size p' (flagAfter up before) after q := by
  induction before generalizing p up with
  | nil => exact ⟨p, h⟩
  | cons m before ih =>
    cases h with
    | cons first later => exact ih later

/-- Nothing is done by a scan that does not go on. -/
theorem of_not_isOpen (h : Proceeds size p up moments q) (hopen : ¬ p.IsOpen) :
    moments = [] ∧ q = p := by
  cases h with
  | nil => exact ⟨rfl, rfl⟩
  | cons first later => exact absurd first.isOpen hopen

theorem of_stopped (h : Proceeds size .stopped up moments q) : moments = [] ∧ q = .stopped :=
  h.of_not_isOpen id

theorem of_ended (h : Proceeds size .ended up moments q) : moments = [] ∧ q = .ended :=
  h.of_not_isOpen id

/-! ### Interruptions -/

theorem not_interrupts_remainder {call : Call} {up : Bool} (h : call.batch.length < size) :
    ¬ Moment.Interrupts size ⟨.handed call, up⟩ := by
  simp [Moment.Interrupts, Nat.ne_of_lt h]

/-- A moment that interrupts the scan is its last one. -/
theorem of_interrupts (h : Proceeds size p up (m :: after) q) (hm : m.Interrupts size) :
    after = [] ∧ q = .stopped := by
  cases h with
  | cons first later =>
    cases first with
    | raised _ => exact of_stopped later
    | refused _ _ => exact of_stopped later
    | lowered _ => simp [Moment.Interrupts] at hm
    | looked _ => simp [Moment.Interrupts] at hm
    | sent _ haccepted _ => simp [Moment.Interrupts, haccepted] at hm
    | remainder _ hpart => exact absurd hm (not_interrupts_remainder hpart)

/-- A scan that goes on comes to be stopped only if something disturbs it. -/
theorem exists_disturbed (h : Proceeds size p up moments .stopped) (hopen : p.IsOpen) :
    ∃ m ∈ moments, m.IsDisturbed := by
  generalize hq : Phase.stopped = q at h
  induction h with
  | nil =>
    subst hq
    exact absurd hopen id
  | @cons _ _ _ _ m _ first later ih =>
    subst hq
    cases first with
    | raised _ => exact ⟨_, List.mem_cons_self, Or.inl rfl⟩
    | refused _ hrefused => exact ⟨_, List.mem_cons_self, Or.inr ⟨_, rfl, hrefused⟩⟩
    | remainder _ _ => exact absurd (of_ended later).2 (by simp)
    | _ =>
      obtain ⟨m', hmem, hm'⟩ := ih trivial rfl
      exact ⟨m', List.mem_cons_of_mem _ hmem, hm'⟩

/-- A scan that is stopped has handed out full batches only. -/
theorem full_of_stopped (h : Proceeds size p up moments .stopped) :
    ∀ batch ∈ moments.filterMap Moment.batch?, batch.length = size := by
  generalize hq : Phase.stopped = q at h
  induction h with
  | nil => simp
  | cons first later ih =>
    subst hq
    intro batch hbatch
    cases first with
    | sent hfull _ _ =>
      rcases List.mem_cons.1 hbatch with rfl | hbatch
      · exact hfull
      · exact ih rfl batch hbatch
    | refused hfull _ =>
      rcases List.mem_cons.1 hbatch with rfl | hbatch
      · exact hfull
      · exact ih rfl batch hbatch
    | remainder _ _ => exact absurd (of_ended later).2 (by simp)
    | _ => exact ih rfl batch hbatch

/-! ### A flag that is up -/

/-- With the flag up, what comes before the next look at it is a look-up after which there may be a
full batch, or this batch. -/
theorem of_up (h : Proceeds size p true after q) (hpoll : ∃ m ∈ after, m.IsPoll) :
    after = [⟨.polled true, true⟩] ∧ q = .stopped ∨
      ∃ m rest, after = m :: rest ∧ (∃ m' ∈ rest, m'.IsPoll) ∧
        (p = .passing ∧ m.action = .looked ∧ Proceeds size .filling true rest q ∨
          p = .filling ∧ (∃ call, m.action = .handed call ∧ call.batch.length = size) ∧
            Proceeds size .ready true rest q) := by
  cases h with
  | nil => simp at hpoll
  | @cons _ _ _ _ m rest first later =>
    have hlater (hm : ¬ m.IsPoll) : ∃ m' ∈ rest, m'.IsPoll := by
      obtain ⟨m', hmem, hm'⟩ := hpoll
      rcases List.mem_cons.1 hmem with rfl | hmem
      · exact absurd hm' hm
      · exact ⟨m', hmem, hm'⟩
    cases first with
    | raised _ =>
      obtain ⟨rfl, rfl⟩ := of_stopped later
      exact Or.inl ⟨rfl, rfl⟩
    | looked hup =>
      obtain rfl := hup rfl
      exact Or.inr ⟨_, rest, rfl, hlater (by simp [Moment.IsPoll]), Or.inl ⟨rfl, rfl, later⟩⟩
    | sent hfull _ hup =>
      obtain rfl := hup rfl
      exact Or.inr ⟨_, rest, rfl, hlater (by simp [Moment.IsPoll]),
        Or.inr ⟨rfl, ⟨_, rfl, hfull⟩, later⟩⟩
    | refused _ _ =>
      obtain ⟨rfl, -⟩ := of_stopped later
      exact absurd (hlater (by simp [Moment.IsPoll])) (by simp)
    | remainder _ _ =>
      obtain ⟨rfl, -⟩ := of_ended later
      exact absurd (hlater (by simp [Moment.IsPoll])) (by simp)

theorem of_up_ready (h : Proceeds size .ready true after q) (hpoll : ∃ m ∈ after, m.IsPoll) :
    after = [⟨.polled true, true⟩] ∧ q = .stopped := by
  rcases h.of_up hpoll with hfound | ⟨m, rest, -, -, ⟨hp, -⟩ | ⟨hp, -⟩⟩
  · exact hfound
  · cases hp
  · cases hp

theorem of_up_filling (h : Proceeds size .filling true after q) (hpoll : ∃ m ∈ after, m.IsPoll) :
    (∃ handed : List Moment, after = handed ++ [⟨.polled true, true⟩] ∧ handed.length ≤ 1 ∧
      ∀ m ∈ handed, ∃ call, m.action = .handed call ∧ call.batch.length = size) ∧
    q = .stopped := by
  rcases h.of_up hpoll with ⟨rfl, rfl⟩ | ⟨m, rest, rfl, hpoll, ⟨hp, -⟩ | ⟨-, hm, later⟩⟩
  · exact ⟨⟨[], rfl, by simp, by simp⟩, rfl⟩
  · cases hp
  · obtain ⟨rfl, rfl⟩ := later.of_up_ready hpoll
    exact ⟨⟨[m], rfl, by simp, by simpa using hm⟩, rfl⟩

/-- With the flag up, a scan that looks at it again finishes its entry and is stopped. -/
theorem finishesEntry (h : Proceeds size p true after q) (hpoll : ∃ m ∈ after, m.IsPoll) :
    FinishesEntry size after ∧ q = .stopped := by
  rcases h.of_up hpoll with ⟨rfl, rfl⟩ |
    ⟨m, rest, rfl, hpoll, ⟨-, hm, later⟩ | ⟨-, hm, later⟩⟩
  · exact ⟨⟨[], [], rfl, by simp, by simp, by simp, by simp⟩, rfl⟩
  · obtain ⟨⟨handed, rfl, hlength, hfull⟩, rfl⟩ := later.of_up_filling hpoll
    exact ⟨⟨[m], handed, rfl, by simp, by simpa using hm, hlength, hfull⟩, rfl⟩
  · obtain ⟨rfl, rfl⟩ := later.of_up_ready hpoll
    exact ⟨⟨[], [m], rfl, by simp, by simp, by simp, by simpa using hm⟩, rfl⟩

end Proceeds

/-! ## Scans are runs -/

/-- The scan has recorded a run from the phase on, and its outcome tells what the run was. -/
def Follows (size : Nat) (p : Phase) (up : Bool) (sent : List (List Found)) (before : List Moment)
    (result : ScanOutcome × Recorded σ) : Prop :=
  ∃ moments q, result.2.moments = before ++ moments ∧ Proceeds size p up moments q ∧
    (result.1.stopped = true ↔ q = .stopped) ∧
    result.1.batches = sent ++ moments.filterMap Moment.batch?

/-- A moment more in front of a run. -/
theorem Follows.cons {p q : Phase} {up : Bool} {sent sent' : List (List Found)} {l : Recorded σ}
    {action : Action} (raised : σ → Bool) (env : σ) {result : ScanOutcome × Recorded σ}
    (first : Moves size p up ⟨action, raised env⟩ q)
    (hsent : sent' = sent ++ (Moment.mk action (raised env)).batch?.toList)
    (h : Follows size q (raised env) sent' (l.note raised action env).moments result) :
    Follows size p up sent l.moments result := by
  obtain ⟨moments, r, hmoments, later, hstopped, hbatches⟩ := h
  refine ⟨⟨action, raised env⟩ :: moments, r, by simp [hmoments, Recorded.note],
    .cons first later, hstopped, ?_⟩
  rw [hbatches, hsent, List.append_assoc]
  cases hbatch : (Moment.mk action (raised env)).batch? with
  | none => simp [hbatch]
  | some batch => simp [hbatch]

/-- Nothing more is recorded. -/
theorem Follows.nil {p : Phase} {stopped : Bool} (hp : stopped = true ↔ p = .stopped) (up : Bool)
    (sent : List (List Found)) (l : Recorded σ) :
    Follows size p up sent l.moments (⟨sent, stopped⟩, l) :=
  ⟨[], p, by simp, .nil, hp, by simp⟩

theorem Phase.IsOpen.ne_stopped {p : Phase} (h : p.IsOpen) : p ≠ .stopped := by
  rintro rfl
  exact h

/-- At the end of the walk, what remains is handed out. -/
theorem finish_follows {p : Phase} (hopen : p.IsOpen) (s : State)
    (hsize : s.filling.length < size) (l : Recorded σ) :
    Follows size p (raised l.env) s.sent l.moments (finish (recorded w raised) l s false) := by
  unfold finish
  by_cases hempty : s.filling.isEmpty = true
  · rw [if_pos hempty]
    exact .nil (by simp [hopen.ne_stopped]) _ _ _
  · rw [if_neg hempty]
    exact .cons raised _ (.remainder hopen hsize) rfl (.nil (by simp) _ _ _)

/-- From any open phase on, a scan follows the automaton. -/
theorem scanRest_follows (hsticky : Sticky w raised) {p : Phase} (hopen : p.IsOpen) (walk : Walk)
    (s : State) (hsize : s.filling.length < size) (l : Recorded σ) :
    Follows size p (raised l.env) s.sent l.moments
      (scanRest (recorded w raised) size walk s l) := by
  induction walk generalizing p s l with
  | nil => exact finish_follows hopen s hsize l
  | cons item rest ih =>
    have hready : Phase.ready.IsOpen := trivial
    have hpassing : Phase.passing.IsOpen := trivial
    have hfilling : Phase.filling.IsOpen := trivial
    simp only [scanRest]
    by_cases hstop : (w.isStopped l.env).1 = true
    · have hraised : Moves size p (raised l.env) ⟨.polled true, raised (w.isStopped l.env).2⟩
          .stopped := by
        rw [hsticky.isUp l.env hstop]
        exact .raised hopen
      simp only [recorded, hstop, if_true]
      exact .cons raised _ hraised (List.append_nil _).symm (.nil (by simp) _ _ _)
    · have hlow : raised l.env = false := by
        by_contra hup
        exact hstop (hsticky.found l.env (by simpa using hup))
      rw [hlow]
      simp only [recorded, hstop, if_false, Bool.false_eq_true]
      refine .cons raised (w.isStopped l.env).2 (.lowered hopen) (List.append_nil _).symm ?_
      cases item with
      | none => exact ih hpassing s hsize _
      | some v =>
        let looked := w.lookup (w.isStopped l.env).2 v.path
        let batch := s.filling ++ [foundWith v looked.1]
        let received := w.receive looked.2 (s.sent.length + 1) batch
        let call : Call := ⟨s.sent.length + 1, batch, received.1⟩
        have hlooked : Moves size .passing (raised (w.isStopped l.env).2)
            ⟨.looked, raised looked.2⟩ .filling := .looked (hsticky.lookup _ v.path)
        dsimp only
        split_ifs with himage hfull haccepted
        · have hsent : Moves size .filling (raised looked.2) ⟨.handed call, raised received.2⟩
              .ready := .sent hfull haccepted (hsticky.receive _ _ _)
          refine .cons raised _ hlooked (List.append_nil _).symm (.cons raised _ hsent rfl ?_)
          exact ih hready ⟨_, []⟩ (Nat.lt_of_le_of_lt (Nat.zero_le _) hsize) _
        · have hrefused : Moves size .filling (raised looked.2) ⟨.handed call, raised received.2⟩
              .stopped := .refused hfull (Bool.eq_false_iff.2 haccepted)
          refine .cons raised _ hlooked (List.append_nil _).symm (.cons raised _ hrefused rfl ?_)
          exact .nil (by simp) _ _ _
        · refine .cons raised _ hlooked (List.append_nil _).symm ?_
          refine ih hfilling { s with filling := _ } ?_ _
          simp only [List.length_append, List.length_singleton] at hfull ⊢
          omega
        · exact ih hpassing s hsize _

/-! ## Whole scans -/

/-- The record changes nothing.  A moment at which the flag is found raised, or a full batch is
refused, is the last one of a scan, which is stopped by it and has handed out full batches only.  A
scan during which the flag is never up, and no batch is refused, is not stopped.  If the flag is up
after some moments, and the scan looks at it again, then it does no more than finish its entry
before: a look-up, and a batch that is full with it. -/
theorem interruption_ends_scan (hsticky : Sticky w raised) (batchSize : Nat) (walk : Walk)
    (env : σ) :
    let size := max batchSize 1
    let result := run (recorded w raised) batchSize walk ⟨env, []⟩
    let o := result.1
    let moments := result.2.moments
    (o, result.2.env) = run w batchSize walk env ∧
    o.batches = moments.filterMap Moment.batch? ∧
    (∀ before m after, moments = before ++ m :: after → m.Interrupts size →
      after = [] ∧ o.stopped = true ∧ ∀ batch ∈ o.batches, batch.length = size) ∧
    ((∀ m ∈ moments, ¬ m.IsDisturbed) → o.stopped = false) ∧
    ∀ before after, moments = before ++ after → flagAfter (raised env) before = true →
      (∃ m ∈ after, m.IsPoll) → FinishesEntry size after ∧ o.stopped = true := by
  intro size result o moments
  have hsize : 0 < size := Nat.lt_of_lt_of_le Nat.zero_lt_one (Nat.le_max_right batchSize 1)
  have hready : Phase.ready.IsOpen := trivial
  have hfollows : Follows size .ready (raised env) [] [] result :=
    scanRest_follows hsticky hready walk ⟨[], []⟩ hsize ⟨env, []⟩
  obtain ⟨recorded', q, hrecorded, hrun, hstopped, hbatches⟩ := hfollows
  obtain rfl : moments = recorded' := hrecorded
  have hhanded : o.batches = moments.filterMap Moment.batch? := hbatches
  refine ⟨((shadows_recorded w raised).scanRest_eq size walk ⟨[], []⟩ ⟨env, []⟩).symm, hhanded,
    ?_, ?_, ?_⟩
  · intro before m after heq hm
    have hcut := hrun
    rw [heq] at hcut
    obtain ⟨p, hlater⟩ := hcut.split
    obtain ⟨hlast, rfl⟩ := hlater.of_interrupts hm
    rw [hhanded]
    exact ⟨hlast, hstopped.2 rfl, hrun.full_of_stopped⟩
  · intro hcalm
    by_contra hstop
    obtain rfl := hstopped.1 (by simpa using hstop)
    obtain ⟨m, hmem, hm⟩ := hrun.exists_disturbed hready
    exact hcalm m hmem hm
  · intro before after heq hup hpoll
    rw [heq] at hrun
    obtain ⟨p, hlater⟩ := hrun.split
    rw [hup] at hlater
    obtain ⟨hfinishes, hq⟩ := hlater.finishesEntry hpoll
    exact ⟨hfinishes, hstopped.2 hq⟩

/-! ## A sample -/

/-- Surroundings that count the look-ups and raise the flag at one of them. -/
def raisedAtLookup (n : Nat) : Surroundings Nat where
  isStopped k := (decide (n ≤ k), k)
  lookup k _ := (none, k + 1)
  receive k _ _ := (true, k)

theorem sticky_raisedAtLookup (n : Nat) :
    Sticky (raisedAtLookup n) fun k => decide (n ≤ k) where
  found _ h := h
  isUp _ h := h
  lookup _ _ h := decide_eq_true (Nat.le_succ_of_le (of_decide_eq_true h))
  receive _ _ _ h := h

/-- Three image files. -/
def sampleWalk : Walk :=
  [some ⟨⟨"card/a.jpg"⟩, "a.jpg", true⟩, some ⟨⟨"card/b.jpg"⟩, "b.jpg", true⟩,
    some ⟨⟨"card/c.jpg"⟩, "c.jpg", true⟩]

/-- The scan of these files in batches of two, with the flag raised at the second look-up. -/
def sampleScan : ScanOutcome × Recorded Nat :=
  run (recorded (raisedAtLookup 2) fun k => decide (2 ≤ k)) 2 sampleWalk ⟨0, []⟩

theorem moments_sampleScan : sampleScan.2.moments =
    [⟨.polled false, false⟩, ⟨.looked, false⟩, ⟨.polled false, false⟩, ⟨.looked, true⟩] ++
      [⟨.handed ⟨1, [⟨"a.jpg", "card/a.jpg", none⟩, ⟨"b.jpg", "card/b.jpg", none⟩], true⟩, true⟩,
        ⟨.polled true, true⟩] := by
  rfl

theorem interruption_ends_scan_sample :
    Sticky (raisedAtLookup 2) (fun k => decide (2 ≤ k)) ∧ sampleScan.1.stopped = true ∧
      ∃ before after, sampleScan.2.moments = before ++ after ∧ flagAfter false before = true ∧
        FinishesEntry 2 after := by
  have hsticky := sticky_raisedAtLookup 2
  obtain ⟨-, -, -, -, hup⟩ := interruption_ends_scan hsticky 2 sampleWalk 0
  obtain ⟨hfinishes, hstopped⟩ :=
    hup _ _ moments_sampleScan rfl ⟨⟨.polled true, true⟩, by simp, true, rfl⟩
  exact ⟨hsticky, hstopped, _, _, moments_sampleScan, rfl, hfinishes⟩

/-- The flag is raised at the second look-up, and a batch is handed out after that. -/
theorem raised_flag_passes_batch :
    ∃ before after, sampleScan.2.moments = before ++ after ∧ flagAfter false before = true ∧
      after.filterMap Moment.batch? ≠ [] :=
  ⟨_, _, moments_sampleScan, rfl, by simp [Moment.batch?]⟩

end PhotoIntake.Scan
