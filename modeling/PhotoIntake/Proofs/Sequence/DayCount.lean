import PhotoIntake.Proofs.Sequence.Counting
import Mathlib.Data.List.Induction

/-!
# The count of a day over any clock

A count is read and incremented on whatever day the clock shows, and the clock may go back.  A call
on a later day than that of the count adopts the later day and begins it at zero; a call on an
earlier day counts for the day that stands.

* `perform_of_lt` and `perform_of_not_lt`: what one call does, by the order of the two days.
* `after_of_lt` and `after_of_not_lt`: what calls come to from the adoption of a day on.
* `isLatest_after`: the day of the count is the latest day seen.
* `exists_adoption`: the first day still stands, or there is a call that adopted the day.
* `count_on_of_forward`: on days that do not go back, the count is that of the day.
* `after_gets`: reading more often changes nothing.
* `foldl_performWord`: counts in words of 32 bits are the same counts, modulo the bound of a word.
* `Sequences.durable_foldl_perform`: sequences call their count in the same way.
* `counts_since_adopted`: all of it for one count.
-/

namespace PhotoIntake

open Calendar (Date)

namespace Calendar.Date

/-- The day is one of the days, and none of them is after it. -/
structure IsLatest (latest : Date) (days : List Date) : Prop where
  mem : latest ∈ days
  not_lt : ∀ day ∈ days, ¬ latest < day

/-- None of the days is before an earlier one. -/
def Forward (days : List Date) : Prop :=
  days.Pairwise fun earlier later => ¬ later < earlier

variable {latest day : Date} {days : List Date}

theorem isLatest_singleton (day : Date) : day.IsLatest [day] :=
  ⟨List.mem_singleton_self day, fun d hd => by
    rw [List.mem_singleton.1 hd]
    exact lt_irrefl day⟩

theorem IsLatest.append_of_lt (h : latest.IsLatest days) (hlater : latest < day) :
    day.IsLatest (days ++ [day]) := by
  refine ⟨by simp, fun d hd hday => ?_⟩
  rcases List.mem_append.1 hd with hd | hd
  · exact h.not_lt d hd (lt_trans hlater hday)
  · rw [List.mem_singleton.1 hd] at hday
    exact lt_irrefl day hday

theorem IsLatest.append_of_not_lt (h : latest.IsLatest days) (hnot : ¬ latest < day) :
    latest.IsLatest (days ++ [day]) := by
  refine ⟨List.mem_append_left _ h.mem, fun d hd => ?_⟩
  rcases List.mem_append.1 hd with hd | hd
  · exact h.not_lt d hd
  · rwa [List.mem_singleton.1 hd]

end Calendar.Date

namespace Sequence.Daily

/-! ## Calls -/

/-- A call on a count, with the day that the clock shows. -/
inductive Call where
  | get (day : Date)
  | increment (day : Date)
  deriving DecidableEq

namespace Call

/-- The day of a call. -/
def day : Call → Date
  | get day => day
  | increment day => day

/-- The call is an increment. -/
def isIncrement : Call → Bool
  | get _ => false
  | increment _ => true

end Call

/-- The increments among calls. -/
def increments (calls : List Call) : Nat :=
  calls.countP Call.isIncrement

/-- The increments on a day. -/
def incrementsOn (day : Date) (calls : List Call) : Nat :=
  calls.countP fun call => call.isIncrement && call.day = day

/-- The count after a call. -/
def perform (d : Daily) : Call → Daily
  | .get day => d.on day
  | .increment day => d.increment day

/-- The count after some calls in turn. -/
def after (d : Daily) (calls : List Call) : Daily :=
  calls.foldl perform d

variable {d : Daily} {call : Call} {calls since : List Call} {day : Date}

theorem increments_cons (call : Call) (calls : List Call) :
    increments (call :: calls) = increments [call] + increments calls := by
  rw [increments, ← List.singleton_append, List.countP_append]
  rfl

theorem incrementsOn_cons (day : Date) (call : Call) (calls : List Call) :
    incrementsOn day (call :: calls) =
      (if day = call.day then increments [call] else 0) + incrementsOn day calls := by
  rw [incrementsOn, ← List.singleton_append, List.countP_append]
  by_cases h : day = call.day
  · simp [increments, incrementsOn, h]
  · simp [incrementsOn, h, Ne.symm h]

@[simp] theorem after_nil (d : Daily) : d.after [] = d :=
  rfl

theorem after_cons (d : Daily) (call : Call) (calls : List Call) :
    d.after (call :: calls) = (d.perform call).after calls :=
  rfl

theorem after_append (d : Daily) (before since : List Call) :
    d.after (before ++ since) = (d.after before).after since :=
  List.foldl_append

/-! ## The day that stands -/

/-- A call on a day that is not later counts for the day that stands. -/
theorem perform_of_not_lt (h : ¬ d.date < call.day) :
    d.perform call = ⟨d.date, d.count + increments [call]⟩ := by
  cases call with
  | get day => exact if_neg h
  | increment day =>
    have hon : d.on day = d := if_neg h
    rw [perform, increment, hon]
    rfl

/-- A call on a later day adopts the day. -/
theorem perform_of_lt (h : d.date < call.day) : d.perform call = ⟨call.day, increments [call]⟩ := by
  cases call with
  | get day => exact if_pos h
  | increment day =>
    have hon : d.on day = ⟨day, 0⟩ := if_pos h
    rw [perform, increment, hon]
    rfl

theorem after_of_not_lt (h : ∀ call ∈ calls, ¬ d.date < call.day) :
    d.after calls = ⟨d.date, d.count + increments calls⟩ := by
  induction calls generalizing d with
  | nil => rfl
  | cons call calls ih =>
    have hcall := perform_of_not_lt (h call List.mem_cons_self)
    have hcalls : ∀ c ∈ calls, ¬ (d.perform call).date < c.day := by
      rw [hcall]
      exact fun c hc => h c (List.mem_cons_of_mem call hc)
    rw [after_cons, ih hcalls, hcall, increments_cons call calls, Nat.add_assoc]

theorem after_of_lt (h : d.date < call.day) (hsince : ∀ c ∈ since, ¬ call.day < c.day) :
    d.after (call :: since) = ⟨call.day, increments (call :: since)⟩ := by
  have hcall := perform_of_lt h
  have hcalls : ∀ c ∈ since, ¬ (d.perform call).date < c.day := by
    rwa [hcall]
  rw [after_cons, after_of_not_lt hcalls, hcall, increments_cons call since]

/-- The day of the count is the latest of its first day and the days seen since. -/
theorem isLatest_after (d : Daily) (calls : List Call) :
    (d.after calls).date.IsLatest (d.date :: calls.map Call.day) := by
  induction calls using List.reverseRecOn with
  | nil => exact Date.isLatest_singleton d.date
  | append_singleton calls call ih =>
    rw [after_append, after_cons, after_nil, List.map_append, ← List.cons_append]
    by_cases hlater : (d.after calls).date < call.day
    · rw [perform_of_lt hlater]
      exact ih.append_of_lt hlater
    · rw [perform_of_not_lt hlater]
      exact ih.append_of_not_lt hlater

/-- The first day still stands, or a call adopted the day that stands. -/
theorem exists_adoption (d : Daily) (calls : List Call) :
    (∀ call ∈ calls, ¬ d.date < call.day) ∨
      ∃ before call since, calls = before ++ call :: since ∧ (d.after before).date < call.day ∧
        ∀ c ∈ since, ¬ call.day < c.day := by
  induction calls using List.reverseRecOn with
  | nil => exact Or.inl fun _ h => nomatch h
  | append_singleton calls call ih =>
    by_cases hlater : (d.after calls).date < call.day
    · exact Or.inr ⟨calls, call, [], rfl, hlater, fun _ h => nomatch h⟩
    · rcases ih with hstands | ⟨before, adopter, since, rfl, hadopts, hsince⟩
      · rw [after_of_not_lt hstands] at hlater
        refine Or.inl fun c hc => ?_
        rcases List.mem_append.1 hc with hc | hc
        · exact hstands c hc
        · rwa [List.mem_singleton.1 hc]
      · rw [after_append, after_of_lt hadopts hsince] at hlater
        refine Or.inr ⟨before, adopter, since ++ [call], by simp, hadopts, fun c hc => ?_⟩
        rcases List.mem_append.1 hc with hc | hc
        · exact hsince c hc
        · rwa [List.mem_singleton.1 hc]

/-- The count is that of the increments since its day was adopted, or of all on top of the first
count while the first day stands. -/
theorem after_since_adoption (d : Daily) (calls : List Call) :
    d.after calls = ⟨d.date, d.count + increments calls⟩ ∨
      ∃ before call since, calls = before ++ call :: since ∧ (d.after before).date < call.day ∧
        d.after calls = ⟨call.day, increments (call :: since)⟩ := by
  rcases d.exists_adoption calls with hstands | ⟨before, call, since, rfl, hadopts, hsince⟩
  · exact Or.inl (after_of_not_lt hstands)
  · refine Or.inr ⟨before, call, since, rfl, hadopts, ?_⟩
    rw [after_append, after_of_lt hadopts hsince]

/-! ## Days that do not go back -/

/-- A call on the day of the count or a later one leaves its day and, of the first count, what is
of that day. -/
theorem perform_of_forward (h : ¬ call.day < d.date) :
    d.perform call = ⟨call.day, (if call.day = d.date then d.count else 0) + increments [call]⟩ := by
  by_cases hlater : d.date < call.day
  · have hne : call.day ≠ d.date := fun heq => Date.lt_irrefl _ (heq ▸ hlater)
    rw [perform_of_lt hlater, if_neg hne, Nat.zero_add]
  · have heq : d.date = call.day := Date.eq_of_not_lt hlater h
    rw [perform_of_not_lt hlater, if_pos heq.symm, heq]

/-- On days that do not go back, the count of a day is that of its increments, on top of the first
count if it is the first day. -/
theorem count_on_of_forward (h : Date.Forward (d.date :: (calls.map Call.day ++ [day]))) :
    ((d.after calls).on day).count =
      (if day = d.date then d.count else 0) + incrementsOn day calls := by
  induction calls generalizing d with
  | nil =>
    have hday : ¬ (Call.get day).day < d.date := (List.pairwise_cons.1 h).1 day (by simp)
    rw [after_nil, ← perform, perform_of_forward hday]
    rfl
  | cons call calls ih =>
    obtain ⟨hfirst, hrest⟩ := List.pairwise_cons.1 h
    have hcall := perform_of_forward (hfirst call.day (by simp))
    have hday : ¬ day < call.day := (List.pairwise_cons.1 hrest).1 day (by simp)
    have hforward : Date.Forward ((d.perform call).date :: (calls.map Call.day ++ [day])) := by
      rw [hcall]
      exact hrest
    rw [after_cons, ih hforward, hcall, incrementsOn_cons, ← Nat.add_assoc]
    congr 1
    by_cases hsame : day = call.day
    · rw [if_pos hsame, if_pos hsame, hsame]
    · have hne : day ≠ d.date := by
        rintro rfl
        exact hsame (Date.eq_of_not_lt hday (hfirst call.day (by simp)))
      rw [if_neg hsame, if_neg hsame, if_neg hne]

/-- A count that was read on a day is not changed by reading it again, on that day or before. -/
theorem after_gets {reads : List Call}
    (hreads : ∀ c ∈ reads, c.isIncrement = false ∧ ¬ day < c.day) :
    (d.on day).after reads = d.on day := by
  have hnone : increments reads = 0 :=
    List.countP_eq_zero.2 fun c hc => by simp [(hreads c hc).1]
  rw [after_of_not_lt fun c hc => Date.not_lt_trans (hreads c hc).2 (d.not_lt_on day), hnone]
  rfl

/-! ## Words -/

/-- A call on a day and a count of 32 bits, which goes on with zero behind the last word. -/
def performWord (w : Date × UInt32) (call : Call) : Date × UInt32 :=
  let w := if w.1 < call.day then (call.day, 0) else w
  if call.isIncrement then (w.1, w.2 + 1) else w

/-- The day and the count, the latter as far as it fits a word. -/
def inWord (d : Daily) : Date × UInt32 :=
  (d.date, UInt32.ofNat d.count)

theorem performWord_inWord (d : Daily) (call : Call) :
    performWord d.inWord call = (d.perform call).inWord := by
  by_cases hlater : d.date < call.day
  · rw [perform_of_lt hlater, performWord, inWord, if_pos hlater]
    cases call <;> rfl
  · rw [perform_of_not_lt hlater, performWord, inWord, if_neg hlater]
    cases call with
    | get day => rfl
    | increment day =>
      have hnext : UInt32.ofNat d.count + 1 = UInt32.ofNat (d.count + 1) :=
        (UInt32.ofNat_add d.count 1).symm
      exact Prod.ext rfl hnext

theorem foldl_performWord (d : Daily) (calls : List Call) :
    calls.foldl performWord d.inWord = (d.after calls).inWord := by
  induction calls generalizing d with
  | nil => rfl
  | cons call calls ih => rw [List.foldl_cons, performWord_inWord, ih, after_cons]

end Sequence.Daily

/-! ## Sequences -/

namespace Sequences

open Sequence Daily

/-- Sequences after a call on their count of the day. -/
def perform (t : FileTree) (s : Sequences) : Call → Sequences
  | .get day => (s.downloadsToday t day).2
  | .increment day => s.increment t day

theorem durable_perform (s : Sequences) (t : FileTree) (call : Call) :
    let d := s.durableIn t call.day
    (s.perform t call).durable =
      some ⟨d.daily.perform call, d.storedNumber + increments [call]⟩ := by
  cases call with
  | get day =>
    rw [perform, downloadsToday_eq]
    rfl
  | increment day =>
    rw [perform, increment_eq]
    rfl

/-- The count of sequences in memory is called whenever they are. -/
theorem durable_foldl_perform {s : Sequences} {d : Durable} (hdurable : s.durable = some d)
    (t : FileTree) (calls : List Call) :
    (calls.foldl (perform t) s).durable =
      some ⟨d.daily.after calls, d.storedNumber + increments calls⟩ := by
  induction calls generalizing s d with
  | nil => exact hdurable
  | cons call calls ih =>
    have hcall := s.durable_perform t call
    rw [durableIn_of_some hdurable] at hcall
    rw [List.foldl_cons, ih hcall, increments_cons call calls, Nat.add_assoc]
    rfl

end Sequences

namespace Sequence.Daily

/-! ## All of it -/

/-- The day of a count is the latest of its first day and the days seen since, and its value is the
number of increments since that day was adopted, on top of the first value while the first day
stands.  On days that do not go back, the count of a day is the number of increments on it, on top
of the first value if it is the first day.  Reading it again changes nothing.  A count in a word is
the same as long as it fits, and so is the count of sequences that are looked at and incremented. -/
theorem counts_since_adopted (d : Daily) (calls : List Call) :
    (d.after calls).date.IsLatest (d.date :: calls.map Call.day) ∧
    (d.after calls = ⟨d.date, d.count + increments calls⟩ ∨
      ∃ before call since, calls = before ++ call :: since ∧ (d.after before).date < call.day ∧
        d.after calls = ⟨call.day, increments (call :: since)⟩) ∧
    (∀ day, Date.Forward (d.date :: (calls.map Call.day ++ [day])) →
      ((d.after calls).on day).count =
        (if day = d.date then d.count else 0) + incrementsOn day calls) ∧
    (∀ day reads, (∀ c ∈ reads, c.isIncrement = false ∧ ¬ day < c.day) →
      ((d.after calls).on day).after reads = (d.after calls).on day) ∧
    calls.foldl performWord d.inWord = (d.after calls).inWord ∧
    (∀ (s : Sequences) (t : FileTree) (stored : Nat), s.durable = some ⟨d, stored⟩ →
      (calls.foldl (Sequences.perform t) s).durable =
        some ⟨d.after calls, stored + increments calls⟩) :=
  ⟨d.isLatest_after calls, d.after_since_adoption calls, fun _ => count_on_of_forward,
    fun _ _ => after_gets, d.foldl_performWord calls,
    fun _ t _ hdurable => Sequences.durable_foldl_perform hdurable t calls⟩

/-- A count of the day before, two images on the new day and a look at the next one. -/
theorem counts_since_adopted_sample :
    let first : Date := ⟨2024, 3, 4, by decide⟩
    let second : Date := ⟨2024, 3, 5, by decide⟩
    let calls : List Call := [.increment first, .get second, .increment second, .increment second]
    let s : Sequences := { Sequences.ofFile ⟨"s.json"⟩ with durable := some ⟨⟨first, 7⟩, 12⟩ }
    let t : FileTree := ⟨[], [], none, 0⟩
    Date.Forward (first :: (calls.map Call.day ++ [second])) ∧
      (((⟨first, 7⟩ : Daily).after calls).on second).count = 2 ∧
      ((((⟨first, 7⟩ : Daily).after calls).on second).after [.get second, .get first]) =
        ⟨second, 2⟩ ∧
      (calls.foldl (Sequences.perform t) s).durable = some ⟨⟨second, 2⟩, 15⟩ := by
  intro first second calls s t
  have hforward : Date.Forward (first :: (calls.map Call.day ++ [second])) := by
    unfold Date.Forward
    decide
  obtain ⟨-, -, hcount, hagain, -, hsequences⟩ := counts_since_adopted ⟨first, 7⟩ calls
  refine ⟨hforward, (hcount second hforward).trans (by decide), ?_, ?_⟩
  · refine (hagain second [.get second, .get first] (by decide)).trans ?_
    decide
  · refine (hsequences s t 12 rfl).trans ?_
    decide

end Sequence.Daily

end PhotoIntake
