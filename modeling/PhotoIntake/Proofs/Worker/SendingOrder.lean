import PhotoIntake.Proofs.Worker.Passages

/-!
# Commands are handled in sending order

Requests reach the loop from two queues: those put aside by a look for an interruption, and those
that still arrive.  The loop takes from the first one, a look only reads from the second one, and
what it reads is put behind what was put aside before.  So the commands of a mailbox fall into
those that are handled and those that a look consumes, and both keep the order of sending.

* `Mailbox.Looked`: all that a look for an interruption can do.
* `Mailbox.Accounts`: the commands that a mailbox still holds, split into handled and consumed
  ones.  `Looked.accounts` and `accounts_next` carry it back over a look and over a step of the
  loop, `loop_accounts` over the whole loop.
* `commands_in_sending_order`: the split for a run from its start, with the end of the run.
-/

namespace PhotoIntake

/-- Two lists that are the parts of a third one: its elements come in turn from either of them. -/
inductive Interleaved {α : Type} : List α → List α → List α → Prop where
  | nil : Interleaved [] [] []
  | left {as bs cs : List α} (a : α) (h : Interleaved as bs cs) : Interleaved (a :: as) bs (a :: cs)
  | right {as bs cs : List α} (b : α) (h : Interleaved as bs cs) : Interleaved as (b :: bs) (b :: cs)

namespace Interleaved

variable {α : Type} {as bs cs : List α}

theorem append_left (before : List α) (h : Interleaved as bs cs) :
    Interleaved (before ++ as) bs (before ++ cs) := by
  induction before with
  | nil => exact h
  | cons a before ih => exact .left a ih

theorem of_nil (h : Interleaved as bs []) : as = [] ∧ bs = [] := by
  cases h
  exact ⟨rfl, rfl⟩

theorem left_only (as : List α) : Interleaved as [] as := by
  simpa using append_left as .nil

end Interleaved

variable {S C E α : Type}

/-- The request of an arrival that is one. -/
def Arrival.request? : Arrival C → Option (Request C)
  | request r => some r
  | nothing => none

/-- The command of an interruption by a command. -/
def Mailbox.Interruption.command? : Mailbox.Interruption C → Option C
  | .by c => some c
  | _ => Option.none

namespace Mailbox

/-- The requests among some arrivals. -/
def requestsIn (arrivals : List (Arrival C)) : List (Request C) :=
  arrivals.filterMap Arrival.request?

/-- The requests that arrive from now on, in the order in which they were sent. -/
def sent (mb : Mailbox C) : List (Request C) :=
  requestsIn mb.arrivals

/-- The commands before the first request to stop. -/
def commandsBeforeStop : List (Request C) → List C
  | [] => []
  | .stop :: _ => []
  | .run c :: rest => c :: commandsBeforeStop rest

theorem commandsBeforeStop_runs (commands : List C) (rest : List (Request C)) :
    commandsBeforeStop (commands.map .run ++ rest) = commands ++ commandsBeforeStop rest := by
  induction commands with
  | nil => rfl
  | cons c commands ih => rw [List.map_cons, List.cons_append, commandsBeforeStop, ih]; rfl

theorem commandsBeforeStop_map_run (commands : List C) :
    commandsBeforeStop (commands.map .run) = commands := by
  have happend := commandsBeforeStop_runs commands []
  rwa [List.append_nil, commandsBeforeStop, List.append_nil] at happend

theorem any_isStop_runs (commands : List C) : (commands.map Request.run).any isStop = false := by
  simp [isStop]

theorem any_isStop_iff {requests : List (Request C)} :
    requests.any isStop = true ↔ .stop ∈ requests := by
  rw [List.any_eq_true]
  constructor
  · rintro ⟨r, hmem, hr⟩
    cases r with
    | stop => exact hmem
    | run c => exact absurd hr Bool.false_ne_true
  · exact fun hmem => ⟨.stop, hmem, rfl⟩

theorem commandsBeforeStop_append {requests : List (Request C)} (h : requests.any isStop = false)
    (rest : List (Request C)) :
    commandsBeforeStop (requests ++ rest) = commandsBeforeStop requests ++ commandsBeforeStop rest := by
  induction requests with
  | nil => rfl
  | cons r requests ih =>
    cases r with
    | stop => exact absurd h (by simp [isStop])
    | run c =>
      rw [List.cons_append, commandsBeforeStop, commandsBeforeStop, List.cons_append,
        ih (by simpa [isStop] using h)]

/-! ## Looks for an interruption -/

/-- What a look for an interruption can do.  It finds a request to stop that was put aside, or it
reads commands that do not interrupt, puts them aside, and comes upon nothing more, upon a command
that interrupts, or upon a request to stop or the end of what arrives. -/
inductive Looked (interrupts : C → Bool) (mb : Mailbox C) : Interruption C → Mailbox C → Prop where
  | again (hstop : mb.stopDeferred = true) : Looked interrupts mb .stopped mb
  | nothing (hfree : mb.stopDeferred = false) (read : List C) (rest : List (Arrival C))
      (hsent : mb.sent = read.map .run ++ requestsIn rest) :
      Looked interrupts mb .none ⟨mb.deferred ++ read.map .run, rest, mb.closes⟩
  | command (hfree : mb.stopDeferred = false) (read : List C) (c : C) (rest : List (Arrival C))
      (hc : interrupts c = true) (hsent : mb.sent = read.map .run ++ .run c :: requestsIn rest) :
      Looked interrupts mb (.by c) ⟨mb.deferred ++ read.map .run, rest, mb.closes⟩
  | stop (hfree : mb.stopDeferred = false) (read : List C) (rest : List (Arrival C))
      (hsent : mb.sent = read.map .run ++ .stop :: requestsIn rest ∨
        mb.closes = true ∧ mb.sent = read.map .run) :
      Looked interrupts mb .stopped ⟨mb.deferred ++ read.map .run ++ [.stop], rest, mb.closes⟩

/-- The commands that a look has read so far stand between those put aside before and what still
arrives. -/
theorem looked_drain (interrupts : C → Bool) (mb : Mailbox C) (hfree : mb.stopDeferred = false)
    (read : List C) (arrivals : List (Arrival C))
    (hsent : mb.sent = read.map .run ++ requestsIn arrivals) :
    let result := drain interrupts mb.closes (mb.deferred ++ read.map .run) arrivals
    Looked interrupts mb result.1 result.2 := by
  induction arrivals generalizing read with
  | nil =>
    cases hcloses : mb.closes with
    | true =>
      have hlast : mb.sent = read.map .run := by simpa [requestsIn] using hsent
      have hstop : Looked interrupts mb _ _ := .stop hfree read [] (.inr ⟨hcloses, hlast⟩)
      simpa [drain, hcloses] using hstop
    | false =>
      have hnothing : Looked interrupts mb _ _ := .nothing hfree read [] hsent
      simpa [drain, hcloses] using hnothing
  | cons arrival rest ih =>
    match arrival with
    | .nothing => exact .nothing hfree read rest hsent
    | .request .stop => exact .stop hfree read rest (.inl hsent)
    | .request (.run c) =>
      by_cases hc : interrupts c = true
      · simpa [drain, hc] using Looked.command hfree read c rest hc hsent
      · have hread : mb.sent = (read ++ [c]).map .run ++ requestsIn rest := by
          rw [hsent, List.map_append, List.append_assoc]
          rfl
        simpa [drain, hc] using ih (read ++ [c]) hread

theorem looked_interruption (mb : Mailbox C) (interrupts : C → Bool) :
    Looked interrupts mb (mb.interruption interrupts).1 (mb.interruption interrupts).2 := by
  cases hstop : mb.stopDeferred with
  | true =>
    rw [interruption, if_pos hstop]
    exact .again hstop
  | false =>
    have hdrain := looked_drain interrupts mb hstop [] mb.arrivals rfl
    rw [interruption, hstop]
    simpa using hdrain

/-! ## What becomes of the commands of a mailbox -/

/-- The commands that still arrive and will be reached: none once a request to stop was put
aside. -/
def awaited (mb : Mailbox C) : List C :=
  if mb.stopDeferred then [] else commandsBeforeStop mb.sent

/-- The commands of a mailbox, up to the request to stop, are the handled and the consumed ones.
Those that were put aside are handled first; only those that still arrive can be consumed. -/
def Accounts (mb : Mailbox C) (handled consumed : List C) : Prop :=
  ∃ later, handled = commandsBeforeStop mb.deferred ++ later ∧ Interleaved later consumed mb.awaited

/-- A request to stop is there or comes, or the sending end closes. -/
def isEnding (mb : Mailbox C) : Bool :=
  mb.closes || mb.stopDeferred || mb.sent.any isStop

theorem stopDeferred_runs {deferred : List (Request C)} (h : deferred.any isStop = false)
    (read : List C) (rest : List (Arrival C)) (closes : Bool) :
    (Mailbox.mk (deferred ++ read.map .run) rest closes).stopDeferred = false := by
  rw [stopDeferred, List.any_append, h, any_isStop_runs]
  rfl

theorem stopDeferred_stop (deferred : List (Request C)) (rest : List (Arrival C)) (closes : Bool) :
    (Mailbox.mk (deferred ++ [.stop]) rest closes).stopDeferred = true := by
  simp [stopDeferred, isStop]

namespace Looked

variable {interrupts : C → Bool} {mb mb' : Mailbox C} {found : Interruption C}

/-- What is made of the mailbox after a look, and the command that the look consumed, account for
the mailbox before it. -/
theorem accounts (h : Looked interrupts mb found mb') {handled consumed : List C}
    (hafter : mb'.Accounts handled consumed) :
    mb.Accounts handled (found.command?.toList ++ consumed) := by
  cases h with
  | again hstop => simpa [Interruption.command?] using hafter
  | nothing hfree read rest hsent =>
    obtain ⟨later, rfl, hlater⟩ := hafter
    rw [awaited, stopDeferred_runs hfree, if_neg Bool.false_ne_true] at hlater
    refine ⟨read ++ later, ?_, ?_⟩
    · rw [commandsBeforeStop_append hfree, commandsBeforeStop_map_run, List.append_assoc]
    · rw [awaited, hfree, if_neg Bool.false_ne_true, hsent, commandsBeforeStop_runs]
      exact hlater.append_left read
  | command hfree read c rest hc hsent =>
    obtain ⟨later, rfl, hlater⟩ := hafter
    rw [awaited, stopDeferred_runs hfree, if_neg Bool.false_ne_true] at hlater
    refine ⟨read ++ later, ?_, ?_⟩
    · rw [commandsBeforeStop_append hfree, commandsBeforeStop_map_run, List.append_assoc]
    · rw [awaited, hfree, if_neg Bool.false_ne_true, hsent, commandsBeforeStop_runs]
      exact (Interleaved.right c hlater).append_left read
  | stop hfree read rest hsent =>
    -- What arrives behind the request to stop is never reached, so nothing else is consumed.
    obtain ⟨later, rfl, hlater⟩ := hafter
    rw [awaited, stopDeferred_stop, if_pos rfl] at hlater
    obtain ⟨rfl, rfl⟩ := hlater.of_nil
    have hread : commandsBeforeStop mb.sent = read := by
      rcases hsent with hsent | ⟨-, hsent⟩
      · rw [hsent, commandsBeforeStop_runs, commandsBeforeStop, List.append_nil]
      · rw [hsent, commandsBeforeStop_map_run]
    refine ⟨read, ?_, ?_⟩
    · rw [List.append_assoc, commandsBeforeStop_append hfree, commandsBeforeStop_runs,
        commandsBeforeStop, List.append_nil, List.append_nil]
    · rw [awaited, hfree, if_neg Bool.false_ne_true, hread]
      exact .left_only read

/-- A look neither takes the end of a mailbox away nor brings it about. -/
theorem isEnding_eq (h : Looked interrupts mb found mb') : mb'.isEnding = mb.isEnding := by
  cases h with
  | again hstop => rfl
  | nothing hfree read rest hsent =>
    rw [isEnding, stopDeferred_runs hfree, isEnding, hfree, hsent, List.any_append, any_isStop_runs,
      Bool.false_or]
    rfl
  | command hfree read c rest hc hsent =>
    rw [isEnding, stopDeferred_runs hfree, isEnding, hfree, hsent, List.any_append, any_isStop_runs,
      Bool.false_or]
    rfl
  | stop hfree read rest hsent =>
    rw [isEnding, stopDeferred_stop, Bool.or_true, Bool.true_or, isEnding]
    rcases hsent with hsent | ⟨hcloses, -⟩
    · rw [hsent, List.any_append, List.any_cons, isStop]
      simp
    · rw [hcloses]
      rfl

/-- A command that was consumed is one that interrupts. -/
theorem interrupts_of_by {c : C} (h : Looked interrupts mb (.by c) mb') : interrupts c = true := by
  cases h with
  | command hfree read c rest hc hsent => exact hc

/-- Once a request to stop was put aside, a look finds it and changes nothing. -/
theorem eq_of_stopDeferred (h : Looked interrupts mb found mb') (hstop : mb.stopDeferred = true) :
    found = .stopped ∧ mb' = mb := by
  cases h with
  | again => exact ⟨rfl, rfl⟩
  | nothing hfree | command hfree | stop hfree =>
    rw [hfree] at hstop
    exact absurd hstop Bool.false_ne_true

/-- A look that finds the end puts it aside, so that every later look finds it. -/
theorem stopDeferred_of_stopped (h : Looked interrupts mb .stopped mb') :
    mb'.stopDeferred = true := by
  cases h with
  | again hstop => exact hstop
  | stop hfree read rest hsent => exact stopDeferred_stop _ _ _

end Looked

/-! ## Steps of the loop -/

/-- What the loop takes between two commands: the first request that was put aside, or else the
first one that arrives, if there is one. -/
inductive Taken (mb : Mailbox C) : Next C → Mailbox C → Prop where
  | deferred (r : Request C) (rest : List (Request C)) (hdeferred : mb.deferred = r :: rest) :
      Taken mb (.request r) { mb with deferred := rest }
  | arrived (r : Request C) (rest : List (Arrival C)) (hdeferred : mb.deferred = [])
      (hsent : mb.sent = r :: requestsIn rest) : Taken mb (.request r) { mb with arrivals := rest }
  | closed (hcloses : mb.closes = true) (hdeferred : mb.deferred = []) (hsent : mb.sent = []) :
      Taken mb .closed { mb with arrivals := [] }
  | waiting (hcloses : mb.closes = false) (hdeferred : mb.deferred = []) (hsent : mb.sent = []) :
      Taken mb .waiting { mb with arrivals := [] }

theorem taken_next (mb : Mailbox C) : Taken mb mb.next.1 mb.next.2 := by
  obtain ⟨deferred, arrivals, closes⟩ := mb
  cases deferred with
  | cons r rest => exact .deferred r rest rfl
  | nil =>
    induction arrivals with
    | nil =>
      cases closes with
      | true => exact .closed rfl rfl rfl
      | false => exact .waiting rfl rfl rfl
    | cons arrival rest ih =>
      cases arrival with
      | request r => exact .arrived r rest rfl rfl
      | nothing =>
        -- A look that finds nothing leaves no trace in what was sent.
        have hsame : next ⟨[], .nothing :: rest, closes⟩ = next ⟨[], rest, closes⟩ := rfl
        rw [hsame]
        generalize next ⟨[], rest, closes⟩ = taken at ih ⊢
        obtain ⟨found, after⟩ := taken
        cases ih with
        | deferred r later hdeferred => exact absurd hdeferred (by simp)
        | arrived r later hdeferred hsent => exact .arrived r later rfl hsent
        | closed hcloses hdeferred hsent => exact .closed hcloses rfl hsent
        | waiting hcloses hdeferred hsent => exact .waiting hcloses rfl hsent

theorem stopDeferred_nil {mb : Mailbox C} (h : mb.deferred = []) : mb.stopDeferred = false := by
  rw [stopDeferred, h]
  rfl

namespace Taken

variable {mb mb' : Mailbox C} {c : C}

/-- A command that is taken is handled before all that is left. -/
theorem accounts (h : Taken mb (.request (.run c)) mb') {handled consumed : List C}
    (hafter : mb'.Accounts handled consumed) : mb.Accounts (c :: handled) consumed := by
  obtain ⟨later, rfl, hlater⟩ := hafter
  cases h with
  | deferred _ rest hdeferred =>
    refine ⟨later, by rw [hdeferred, commandsBeforeStop, List.cons_append], ?_⟩
    simpa [awaited, stopDeferred, hdeferred, isStop, sent] using hlater
  | arrived _ rest hdeferred hsent =>
    have hfree (arrivals : List (Arrival C)) :
        ({ mb with arrivals } : Mailbox C).stopDeferred = false := stopDeferred_nil hdeferred
    refine ⟨c :: later, by simp [hdeferred, commandsBeforeStop], ?_⟩
    rw [awaited, hfree, if_neg Bool.false_ne_true] at hlater
    rw [awaited, hfree, if_neg Bool.false_ne_true, hsent, commandsBeforeStop]
    exact .left c hlater

theorem isEnding_eq (h : Taken mb (.request (.run c)) mb') : mb'.isEnding = mb.isEnding := by
  cases h with
  | deferred _ rest hdeferred => simp [isEnding, stopDeferred, hdeferred, isStop, sent]
  | arrived _ rest hdeferred hsent =>
    rw [isEnding, isEnding, hsent, List.any_cons, isStop, Bool.false_or]
    rfl

theorem isEnding_of_stop (h : Taken mb (.request .stop) mb') : mb.isEnding = true := by
  cases h with
  | deferred _ rest hdeferred => simp [isEnding, stopDeferred, hdeferred, isStop]
  | arrived _ rest hdeferred hsent =>
    rw [isEnding, hsent, List.any_cons, isStop, Bool.true_or, Bool.or_true]

/-- A request to stop that was put aside stays there while commands are taken. -/
theorem stopDeferred_eq (h : Taken mb (.request (.run c)) mb') :
    mb'.stopDeferred = mb.stopDeferred := by
  cases h with
  | deferred _ rest hdeferred => simp [stopDeferred, hdeferred, isStop]
  | arrived _ rest hdeferred hsent => rfl

/-- Where the loop takes no command, none is left before the request to stop. -/
theorem accounts_nil {found : Next C} (h : Taken mb found mb')
    (hfound : ∀ c, found ≠ .request (.run c)) : mb.Accounts [] [] := by
  have hempty (hdeferred : mb.deferred = [])
      (hsent : mb.sent = [] ∨ ∃ rest, mb.sent = .stop :: rest) : mb.Accounts [] [] := by
    refine ⟨[], by rw [hdeferred]; rfl, ?_⟩
    rw [awaited, stopDeferred_nil hdeferred, if_neg Bool.false_ne_true]
    rcases hsent with hsent | ⟨rest, hsent⟩
    all_goals
      rw [hsent]
      exact .nil
  cases h with
  | deferred r rest hdeferred =>
    cases r with
    | run c => exact absurd rfl (hfound c)
    | stop =>
      refine ⟨[], by rw [hdeferred]; rfl, ?_⟩
      rw [awaited, stopDeferred, hdeferred, List.any_cons, isStop, Bool.true_or, if_pos rfl]
      exact .nil
  | arrived r rest hdeferred hsent =>
    cases r with
    | run c => exact absurd rfl (hfound c)
    | stop => exact hempty hdeferred (.inr ⟨_, hsent⟩)
  | closed hcloses hdeferred hsent => exact hempty hdeferred (.inl hsent)
  | waiting hcloses hdeferred hsent => exact hempty hdeferred (.inl hsent)

end Taken

end Mailbox

/-! ## The handling of a command -/

namespace Occurrence

/-- The commands that would interrupt and what was found, of a look for an interruption. -/
def look? : Occurrence C E → Option ((C → Bool) × Mailbox.Interruption C)
  | looked interrupts found => some (interrupts, found)
  | _ => none

end Occurrence

/-- The looks for an interruption in a log. -/
def looksIn (log : List (Occurrence C E)) : List ((C → Bool) × Mailbox.Interruption C) :=
  log.filterMap Occurrence.look?

/-- The commands that looks have consumed. -/
def consumedIn (log : List (Occurrence C E)) : List C :=
  (looksIn log).filterMap fun look => look.2.command?

theorem looksIn_looked (interrupts : C → Bool) (found : Mailbox.Interruption C)
    (log : List (Occurrence C E)) :
    looksIn (.looked interrupts found :: log) = (interrupts, found) :: looksIn log :=
  rfl

theorem consumedIn_looked (interrupts : C → Bool) (found : Mailbox.Interruption C)
    (log : List (Occurrence C E)) :
    consumedIn (.looked interrupts found :: log) = found.command?.toList ++ consumedIn log := by
  rw [consumedIn, looksIn_looked, List.filterMap_cons]
  cases found.command? <;> rfl

/-- The looks of a loop are those of the handling of the first command and those of the rest. -/
theorem looksIn_handling (c : C) (log later : List (Occurrence C E)) :
    looksIn (.handling c :: log ++ later) = looksIn log ++ looksIn later :=
  List.filterMap_append

namespace Worker

variable {w : Worker S C E}

/-- A look that found the end of the mailbox is followed by looks that find it too. -/
def EndsForGood (looks : List ((C → Bool) × Mailbox.Interruption C)) : Prop :=
  looks.Pairwise fun earlier later => earlier.2 = .stopped → later.2 = .stopped

/-- The task goes on with what a look found, against the mailbox after the look. -/
theorem exists_looked (interrupts : C → Bool) (next : Bool → Handling C E α) (mb : Mailbox C) :
    ∃ found mb', mb.Looked interrupts found mb' ∧
      (perform (.ask interrupts next) mb).2.1 = (perform (next found.holds) mb').2.1 ∧
      (perform (.ask interrupts next) mb).2.2 =
        .looked interrupts found :: (perform (next found.holds) mb').2.2 :=
  ⟨_, _, mb.looked_interruption interrupts, rfl, rfl⟩

/-- What is made of the mailbox after a handling, and the commands that its looks consumed, account
for the mailbox before it. -/
theorem perform_accounts (d : Handling C E α) (mb : Mailbox C) {handled consumed : List C}
    (hafter : (perform d mb).2.1.Accounts handled consumed) :
    mb.Accounts handled (consumedIn (perform d mb).2.2 ++ consumed) := by
  induction d generalizing mb with
  | done a => exact hafter
  | publish e next ih => exact ih mb hafter
  | ask interrupts next ih =>
    obtain ⟨found, mb', hlook, hmailbox, hlog⟩ := exists_looked interrupts next mb
    rw [hmailbox] at hafter
    rw [hlog, consumedIn_looked, List.append_assoc]
    exact hlook.accounts (ih _ mb' hafter)

theorem perform_isEnding (d : Handling C E α) (mb : Mailbox C) :
    (perform d mb).2.1.isEnding = mb.isEnding := by
  induction d generalizing mb with
  | done a => rfl
  | publish e next ih => exact ih mb
  | ask interrupts next ih => exact (ih _ _).trans (mb.looked_interruption interrupts).isEnding_eq

/-- A command that a look consumed is one of those that the look asked about. -/
theorem perform_consumes (d : Handling C E α) (mb : Mailbox C) :
    ∀ look ∈ looksIn (perform d mb).2.2, ∀ c, look.2 = .by c → look.1 c = true := by
  induction d generalizing mb with
  | done a => simp [perform, looksIn]
  | publish e next ih => exact ih mb
  | ask interrupts next ih =>
    obtain ⟨found, mb', hlook, -, hlog⟩ := exists_looked interrupts next mb
    rw [hlog, looksIn_looked, List.forall_mem_cons]
    refine ⟨?_, ih _ mb'⟩
    rintro c rfl
    exact hlook.interrupts_of_by

/-- Once a request to stop was put aside, every look finds it, and it stays. -/
theorem perform_stopped (d : Handling C E α) (mb : Mailbox C) (hstop : mb.stopDeferred = true) :
    (perform d mb).2.1.stopDeferred = true ∧
      ∀ look ∈ looksIn (perform d mb).2.2, look.2 = .stopped := by
  induction d generalizing mb with
  | done a => exact ⟨hstop, by simp [perform, looksIn]⟩
  | publish e next ih => exact ih mb hstop
  | ask interrupts next ih =>
    obtain ⟨found, mb', hlook, hmailbox, hlog⟩ := exists_looked interrupts next mb
    obtain ⟨rfl, rfl⟩ := hlook.eq_of_stopDeferred hstop
    obtain ⟨hafter, hlooks⟩ := ih true mb' hstop
    rw [hmailbox, hlog, looksIn_looked, List.forall_mem_cons]
    exact ⟨hafter, rfl, hlooks⟩

/-- The looks of a handling end for good, and a request to stop that one of them found is still
there afterwards. -/
theorem perform_endsForGood (d : Handling C E α) (mb : Mailbox C) :
    EndsForGood (looksIn (perform d mb).2.2) ∧
      ∀ look ∈ looksIn (perform d mb).2.2, look.2 = .stopped →
        (perform d mb).2.1.stopDeferred = true := by
  induction d generalizing mb with
  | done a => exact ⟨.nil, by simp [perform, looksIn]⟩
  | publish e next ih => exact ih mb
  | ask interrupts next ih =>
    obtain ⟨found, mb', hlook, hmailbox, hlog⟩ := exists_looked interrupts next mb
    obtain ⟨hends, hstays⟩ := ih found.holds mb'
    have hstopped (h : found = .stopped) : mb'.stopDeferred = true := by
      subst h
      exact hlook.stopDeferred_of_stopped
    rw [hmailbox, hlog, looksIn_looked, EndsForGood, List.pairwise_cons,
      List.forall_mem_cons]
    exact ⟨⟨fun look hmem h => (perform_stopped _ mb' (hstopped h)).2 look hmem, hends⟩,
      fun h => (perform_stopped _ mb' (hstopped h)).1, hstays⟩

/-- In the log of a handling no other command begins, and the loop does not end. -/
theorem perform_log (d : Handling C E α) (mb : Mailbox C) :
    ∀ o ∈ (perform d mb).2.2, o.handled? = none ∧ o ≠ .finished := by
  induction d generalizing mb with
  | done a => simp [perform]
  | publish e next ih => exact List.forall_mem_cons.2 ⟨⟨rfl, by rintro ⟨⟩⟩, ih mb⟩
  | ask interrupts next ih =>
    obtain ⟨found, mb', -, -, hlog⟩ := exists_looked interrupts next mb
    rw [hlog]
    exact List.forall_mem_cons.2 ⟨⟨rfl, by rintro ⟨⟩⟩, ih _ mb'⟩

theorem filterMap_handled_perform (d : Handling C E α) (mb : Mailbox C) :
    (perform d mb).2.2.filterMap Occurrence.handled? = [] :=
  List.filterMap_eq_nil_iff.2 fun o ho => (perform_log d mb o ho).1

/-! ## The loop -/

/-- What holds where the loop takes no command, and before a command when it holds after its
handling, holds of the loop. -/
@[elab_as_elim]
theorem loop_induction (w : Worker S C E) {motive : S → Mailbox C → Prop}
    (rest : ∀ s mb, (∀ c, mb.next.1 ≠ .request (.run c)) → motive s mb)
    (run : ∀ s mb c mb', mb.next = (.request (.run c), mb') → mb.Taken (.request (.run c)) mb' →
      motive (perform (w.handle c s) mb').1 (perform (w.handle c s) mb').2.1 → motive s mb)
    (s : S) (mb : Mailbox C) : motive s mb := by
  by_cases hnext : ∃ c, mb.next.1 = .request (.run c)
  · obtain ⟨c, hc⟩ := hnext
    have hnext : mb.next = (.request (.run c), mb.next.2) := Prod.ext hc rfl
    have hsize : (perform (w.handle c s) mb.next.2).2.1.size < mb.size :=
      Nat.lt_of_le_of_lt (size_perform_le _ _) (Mailbox.size_next_lt mb _ c hnext)
    have htaken := mb.taken_next
    rw [hc] at htaken
    exact run s mb c mb.next.2 hnext htaken (loop_induction w rest run _ _)
  · exact rest s mb fun c hc => hnext ⟨c, hc⟩
termination_by mb.size

/-- Where the loop takes no command it has ended, if the mailbox is ending, or it waits. -/
theorem loop_at_rest {s : S} {mb : Mailbox C} (h : ∀ c, mb.next.1 ≠ .request (.run c)) :
    w.loop s mb =
      if mb.isEnding then ⟨w.finish s, [.finished], true⟩ else ⟨s, [], false⟩ := by
  have htaken := mb.taken_next
  rw [loop]
  split
  · next c mb' hnext => exact absurd (congrArg Prod.fst hnext) (h c)
  · next mb' hnext =>
    rw [hnext] at htaken
    rw [htaken.isEnding_of_stop, if_pos rfl]
  · next mb' hnext =>
    rw [hnext] at htaken
    cases htaken with
    | closed hcloses hdeferred hsent =>
      rw [Mailbox.isEnding, hcloses]
      rfl
  · next mb' hnext =>
    rw [hnext] at htaken
    cases htaken with
    | waiting hcloses hdeferred hsent =>
      rw [Mailbox.isEnding, hcloses, Mailbox.stopDeferred_nil hdeferred, hsent]
      rfl

/-- The commands of a mailbox are those that the loop handles and those that its looks consume. -/
theorem loop_accounts (w : Worker S C E) (s : S) (mb : Mailbox C) :
    mb.Accounts (w.loop s mb).handled (consumedIn (w.loop s mb).log) := by
  induction s, mb using loop_induction w with
  | rest s mb h =>
    have hnil := mb.taken_next.accounts_nil h
    rw [loop_at_rest h]
    split
    · exact hnil
    · exact hnil
  | run s mb c mb' hnext htaken ih =>
    have hbefore := htaken.accounts (perform_accounts (w.handle c s) mb' ih)
    have hfirst : Occurrence.handled? (.handling c : Occurrence C E) = some c := rfl
    rw [(loop_run hnext).1, Rest.handled, consumedIn, looksIn_handling, List.filterMap_append,
      List.filterMap_append, List.filterMap_cons_some hfirst, filterMap_handled_perform]
    exact hbefore

/-- The loop ends exactly if its mailbox does. -/
theorem ended_loop (w : Worker S C E) (s : S) (mb : Mailbox C) :
    (w.loop s mb).ended = mb.isEnding := by
  induction s, mb using loop_induction w with
  | rest s mb h =>
    rw [loop_at_rest h]
    cases mb.isEnding <;> rfl
  | run s mb c mb' hnext htaken ih =>
    rw [(loop_run hnext).1, ← htaken.isEnding_eq, ← perform_isEnding (w.handle c s) mb']
    exact ih

/-- The finish of the worker is the last thing that happens, if the loop ends, and happens only
then. -/
theorem finished_loop (w : Worker S C E) (s : S) (mb : Mailbox C) :
    ∃ log, (w.loop s mb).log = log ++ (if (w.loop s mb).ended then [.finished] else []) ∧
      .finished ∉ log := by
  induction s, mb using loop_induction w with
  | rest s mb h =>
    rw [loop_at_rest h]
    refine ⟨[], ?_, List.not_mem_nil⟩
    cases mb.isEnding <;> rfl
  | run s mb c mb' hnext _ ih =>
    obtain ⟨log, hlog, hnot⟩ := ih
    rw [(loop_run hnext).1]
    refine ⟨.handling c :: (perform (w.handle c s) mb').2.2 ++ log, ?_, ?_⟩
    · rw [List.append_assoc, ← hlog]
    · rw [List.cons_append, List.mem_cons, List.mem_append]
      rintro (hfinished | hfinished | hfinished)
      · cases hfinished
      · exact (perform_log _ _ _ hfinished).2 rfl
      · exact hnot hfinished

theorem loop_consumes (w : Worker S C E) (s : S) (mb : Mailbox C) :
    ∀ look ∈ looksIn (w.loop s mb).log, ∀ c, look.2 = .by c → look.1 c = true := by
  induction s, mb using loop_induction w with
  | rest s mb h =>
    rw [loop_at_rest h]
    cases mb.isEnding <;> simp [looksIn, Occurrence.look?]
  | run s mb c mb' hnext _ ih =>
    rw [(loop_run hnext).1, looksIn_handling]
    intro look hlook
    rcases List.mem_append.1 hlook with hlook | hlook
    · exact perform_consumes _ _ look hlook
    · exact ih look hlook

theorem loop_stopped (w : Worker S C E) (s : S) (mb : Mailbox C) (hstop : mb.stopDeferred = true) :
    ∀ look ∈ looksIn (w.loop s mb).log, look.2 = .stopped := by
  induction s, mb using loop_induction w with
  | rest s mb h =>
    rw [loop_at_rest h]
    cases mb.isEnding <;> simp [looksIn, Occurrence.look?]
  | run s mb c mb' hnext htaken ih =>
    obtain ⟨hafter, hlooks⟩ := perform_stopped (w.handle c s) mb' (htaken.stopDeferred_eq.trans hstop)
    rw [(loop_run hnext).1, looksIn_handling]
    intro look hlook
    rcases List.mem_append.1 hlook with hlook | hlook
    · exact hlooks look hlook
    · exact ih hafter look hlook

theorem loop_endsForGood (w : Worker S C E) (s : S) (mb : Mailbox C) :
    EndsForGood (looksIn (w.loop s mb).log) := by
  induction s, mb using loop_induction w with
  | rest s mb h =>
    rw [loop_at_rest h]
    cases mb.isEnding <;> exact .nil
  | run s mb c mb' hnext _ ih =>
    obtain ⟨hends, hstays⟩ := perform_endsForGood (w.handle c s) mb'
    rw [(loop_run hnext).1, looksIn_handling]
    exact List.pairwise_append.2 ⟨hends, ih, fun earlier hearlier later hlater hfound =>
      loop_stopped w _ _ (hstays earlier hearlier hfound) later hlater⟩

/-! ## The run -/

/-- Whatever the moments at which requests arrive, and whatever the looks of the handlings ask: the
commands that were sent before the first request to stop are, in their order, those that the run
handles and those that its looks consume, each of them because it interrupts.  Once a look has
found the end every later one does.  The run ends exactly if a request to stop was sent or the
sending end closes, and then it finishes the worker once, after all else. -/
theorem commands_in_sending_order (w : Worker S C E) (s : S) (arrivals : List (Arrival C))
    (closes : Bool) :
    let mb : Mailbox C := ⟨[], arrivals, closes⟩
    let rest := w.run s mb
    Interleaved rest.handled (consumedIn rest.log) (Mailbox.commandsBeforeStop mb.sent) ∧
      (∀ look ∈ looksIn rest.log, ∀ c, look.2 = .by c → look.1 c = true) ∧
      (looksIn rest.log).Pairwise
        (fun earlier later => earlier.2 = .stopped → later.2.holds = true) ∧
      (rest.ended = true ↔ closes = true ∨ .stop ∈ mb.sent) ∧
      (∃ log, rest.log = log ++ (if rest.ended then [.finished] else []) ∧ .finished ∉ log) ∧
      rest.state =
        let last := stateAfter (w.prepare s) (w.passages (w.prepare s) mb)
        if rest.ended then w.finish last else last := by
  intro mb rest
  have haccounts : Interleaved rest.handled (consumedIn rest.log)
      (Mailbox.commandsBeforeStop mb.sent) := by
    obtain ⟨later, hhandled, hlater⟩ := loop_accounts w (w.prepare s) mb
    -- Nothing was put aside yet, so all that is handled is what arrives.
    obtain rfl : rest.handled = later := hhandled
    exact hlater
  have hended : rest.ended = true ↔ closes = true ∨ .stop ∈ mb.sent := by
    rw [show rest.ended = mb.isEnding from ended_loop w (w.prepare s) mb, Mailbox.isEnding,
      Mailbox.stopDeferred_nil rfl, Bool.or_false, Bool.or_eq_true, Mailbox.any_isStop_iff]
  have hlooks := (loop_endsForGood w (w.prepare s) mb).imp
    (S := fun earlier later => earlier.2 = .stopped → later.2.holds = true)
    fun h hfound => by rw [h hfound]; rfl
  exact ⟨haccounts, loop_consumes w _ mb, hlooks, hended, finished_loop w _ mb,
    (loop_passes w (w.prepare s) mb).2.2⟩

end Worker

end PhotoIntake
