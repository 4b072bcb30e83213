/-!
# Mailboxes

A worker gets its requests from a mailbox.  Requests arrive over time: looking for one may find
nothing yet.  While a long command runs the worker looks for an interruption; requests that are
none are put aside and come first afterwards.
-/

namespace PhotoIntake

/-- What is sent to a worker. -/
inductive Request (C : Type) where
  | stop
  | run (command : C)
  deriving DecidableEq

/-- What looking into a mailbox finds. -/
inductive Arrival (C : Type) where
  | request (r : Request C)
  | nothing
  deriving DecidableEq

/-- Requests put aside, what arrives at each look from now on, and whether the sending end is
closed after that. -/
structure Mailbox (C : Type) where
  deferred : List (Request C)
  arrivals : List (Arrival C)
  closes : Bool

namespace Mailbox

variable {C : Type}

/-- The request is the one to stop. -/
def isStop : Request C → Bool
  | .stop => true
  | .run _ => false

/-- A request to stop was put aside. -/
def stopDeferred (mb : Mailbox C) : Bool :=
  mb.deferred.any isStop

/-- Looks that the mailbox has an answer for, those for deferred requests included. -/
def size (mb : Mailbox C) : Nat :=
  2 * mb.arrivals.length + mb.deferred.length +
    if mb.closes && !mb.stopDeferred then 1 else 0

/-- How a look for an interruption ended: a request to stop, a closed mailbox or a matching
command, or nothing of the kind. -/
inductive Interruption (C : Type) where
  | stopped
  | by (command : C)
  | none

/-- The task is to end. -/
def Interruption.holds : Interruption C → Bool
  | .none => false
  | _ => true

/-- Put requests aside until one interrupts or nothing has arrived yet. -/
def drain (interrupts : C → Bool) (closes : Bool) :
    List (Request C) → List (Arrival C) → Interruption C × Mailbox C
  | deferred, [] =>
    if closes then (.stopped, ⟨deferred ++ [.stop], [], closes⟩)
    else (.none, ⟨deferred, [], closes⟩)
  | deferred, .nothing :: rest => (.none, ⟨deferred, rest, closes⟩)
  | deferred, .request .stop :: rest => (.stopped, ⟨deferred ++ [.stop], rest, closes⟩)
  | deferred, .request (.run c) :: rest =>
    if interrupts c then (.by c, ⟨deferred, rest, closes⟩)
    else drain interrupts closes (deferred ++ [.run c]) rest

/-- Look for an interruption.  A command that interrupts is used up; a request to stop stays. -/
def interruption (mb : Mailbox C) (interrupts : C → Bool) : Interruption C × Mailbox C :=
  if mb.stopDeferred then (.stopped, mb)
  else drain interrupts mb.closes mb.deferred mb.arrivals

/-- What the next look between two commands finds. -/
inductive Next (C : Type) where
  | request (r : Request C)
  | closed
  | waiting

/-- The next request: one put aside, or the next that arrives. -/
def next (mb : Mailbox C) : Next C × Mailbox C :=
  match mb.deferred with
  | r :: rest => (.request r, { mb with deferred := rest })
  | [] =>
    match mb.arrivals.dropWhile fun a => match a with | .nothing => true | .request _ => false with
    | .request r :: rest => (.request r, { mb with arrivals := rest })
    | _ => (if mb.closes then .closed else .waiting, { mb with arrivals := [] })

theorem stopDeferred_append (deferred : List (Request C)) (r : Request C) :
    (deferred ++ [r]).any isStop = (deferred.any isStop || isStop r) := by
  simp

theorem size_cons (deferred : List (Request C)) (a : Arrival C) (rest : List (Arrival C))
    (closes : Bool) :
    (Mailbox.mk deferred (a :: rest) closes).size = (Mailbox.mk deferred rest closes).size + 2 := by
  show 2 * (rest.length + 1) + deferred.length +
      (if closes && !deferred.any isStop then 1 else 0) =
    2 * rest.length + deferred.length + (if closes && !deferred.any isStop then 1 else 0) + 2
  omega

theorem size_append_run (deferred : List (Request C)) (c : C) (rest : List (Arrival C))
    (closes : Bool) :
    (Mailbox.mk (deferred ++ [.run c]) rest closes).size =
      (Mailbox.mk deferred rest closes).size + 1 := by
  have same : (deferred ++ [Request.run c]).any isStop = deferred.any isStop := by
    rw [stopDeferred_append, show isStop (Request.run c) = false from rfl, Bool.or_false]
  show 2 * rest.length + (deferred ++ [Request.run c]).length +
      (if closes && !(deferred ++ [Request.run c]).any isStop then 1 else 0) =
    2 * rest.length + deferred.length + (if closes && !deferred.any isStop then 1 else 0) + 1
  rw [same, List.length_append, List.length_singleton]
  omega

theorem size_append_stop (deferred : List (Request C)) (rest : List (Arrival C)) (closes : Bool) :
    (Mailbox.mk (deferred ++ [.stop]) rest closes).size =
      2 * rest.length + deferred.length + 1 := by
  have stops : (deferred ++ [(Request.stop : Request C)]).any isStop = true := by
    rw [stopDeferred_append, show isStop (Request.stop : Request C) = true from rfl, Bool.or_true]
  show 2 * rest.length + (deferred ++ [(Request.stop : Request C)]).length +
      (if closes && !(deferred ++ [(Request.stop : Request C)]).any isStop then 1 else 0) = _
  rw [stops, List.length_append, List.length_singleton, Bool.not_true, Bool.and_false,
    if_neg Bool.false_ne_true]
  omega

theorem size_drain_le (interrupts : C → Bool) (closes : Bool) (deferred : List (Request C))
    (arrivals : List (Arrival C)) (h : deferred.any isStop = false) :
    (drain interrupts closes deferred arrivals).2.size ≤
      (Mailbox.mk deferred arrivals closes).size := by
  induction arrivals generalizing deferred with
  | nil =>
    unfold drain
    split
    · next closed =>
      rw [size_append_stop]
      show _ ≤ 2 * 0 + deferred.length + if closes && !deferred.any isStop then 1 else 0
      rw [closed, h, Bool.not_false, Bool.and_self, if_pos rfl]
      exact Nat.le_refl _
    · exact Nat.le_refl _
  | cons a rest ih =>
    rw [size_cons]
    match a with
    | .nothing => exact Nat.le_add_right _ 2
    | .request .stop =>
      show (Mailbox.mk (deferred ++ [.stop]) rest closes).size ≤ _
      rw [size_append_stop]
      show _ ≤ 2 * rest.length + deferred.length + _ + 2
      omega
    | .request (.run c) =>
      unfold drain
      split
      · exact Nat.le_add_right _ 2
      · have free : (deferred ++ [Request.run c]).any isStop = false := by
          rw [stopDeferred_append, h]
          rfl
        have later := ih (deferred ++ [Request.run c]) free
        rw [size_append_run] at later
        omega

/-- A look for an interruption leaves no more to be done. -/
theorem size_interruption_le (mb : Mailbox C) (interrupts : C → Bool) :
    (mb.interruption interrupts).2.size ≤ mb.size := by
  unfold interruption
  split
  · exact Nat.le_refl _
  · next h =>
    exact size_drain_le interrupts mb.closes mb.deferred mb.arrivals (Bool.eq_false_iff.2 h)

/-- Taking a command leaves less to be done. -/
theorem size_next_lt (mb mb' : Mailbox C) (c : C) (h : mb.next = (.request (.run c), mb')) :
    mb'.size < mb.size := by
  obtain ⟨deferred, arrivals, closes⟩ := mb
  unfold next at h
  split at h
  · next r rest hd =>
    obtain ⟨hr, rfl⟩ := Prod.mk.inj h
    obtain rfl := Next.request.inj hr
    simp only at hd
    subst hd
    simp [size, stopDeferred, isStop]
  · next hd =>
    simp only at hd
    subst hd
    split at h
    · next r rest ha =>
      obtain ⟨hr, rfl⟩ := Prod.mk.inj h
      have hlen : (Arrival.request r :: rest).length ≤ arrivals.length := by
        rw [← ha]
        exact (List.dropWhile_suffix _).length_le
      simp only [List.length_cons] at hlen
      simp [size, stopDeferred]
      omega
    · obtain ⟨hr, -⟩ := Prod.mk.inj h
      cases closes <;> simp at hr

end Mailbox

end PhotoIntake
