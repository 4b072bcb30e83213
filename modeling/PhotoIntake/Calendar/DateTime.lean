import PhotoIntake.Calendar.Date

/-!
# Times of day and date-times

A time of day counts nanoseconds within its second.  A leap second is the last second of its
minute with a second's worth of nanoseconds on top, so a minute may end in `:60`.
-/

namespace PhotoIntake.Calendar

/-- Nanoseconds of a second. -/
def nanosPerSecond : Nat := 1000000000

/-- The four numbers name a time of day. -/
def IsTime (hour minute second nano : Nat) : Prop :=
  hour < 24 ∧ minute < 60 ∧ second < 60 ∧
    (nano < nanosPerSecond ∨ (second = 59 ∧ nano < 2 * nanosPerSecond))

instance (hour minute second nano : Nat) : Decidable (IsTime hour minute second nano) :=
  inferInstanceAs (Decidable (_ ∧ _))

/-- A time of day. -/
structure Time where
  hour : Nat
  minute : Nat
  second : Nat
  nano : Nat
  valid : IsTime hour minute second nano
  deriving DecidableEq

namespace Time

/-- The time with the given numbers, if there is one. -/
def of? (hour minute second nano : Nat) : Option Time :=
  if h : IsTime hour minute second nano then some ⟨hour, minute, second, nano, h⟩ else none

/-- The start of the day. -/
def midnight : Time :=
  ⟨0, 0, 0, 0, by decide⟩

/-- The second as a clock shows it: 60 in a leap second. -/
def shownSecond (t : Time) : Nat :=
  t.second + t.nano / nanosPerSecond

/-- The part of the second that has passed, in nanoseconds. -/
def fraction (t : Time) : Nat :=
  t.nano % nanosPerSecond

/-- The time is in a leap second. -/
def isLeap (t : Time) : Bool :=
  nanosPerSecond ≤ t.nano

/-- The time a clock shows, with the second up to 60. -/
def ofShown? (hour minute second fraction : Nat) : Option Time :=
  if second = 60 then of? hour minute 59 (nanosPerSecond + fraction)
  else of? hour minute second fraction

end Time

/-- A day and a time on it. -/
structure DateTime where
  date : Date
  time : Time
  deriving DecidableEq

namespace DateTime

/-- The start of 1970. -/
def epoch : DateTime :=
  ⟨Date.epoch, Time.midnight⟩

instance : Inhabited DateTime := ⟨epoch⟩

/-- The moment a day earlier, if the calendar has it.  A leap second is left behind by way of the
second after it, so the last one of a day leads to the start of that day. -/
def dayBefore? (t : DateTime) : Option DateTime :=
  if t.time.isLeap then
    let ahead := t.time.hour * 60 + t.time.minute + 1
    let time := (Time.of? (ahead / 60 % 24) (ahead % 60) 0 t.time.fraction).getD .midnight
    if ahead = 24 * 60 then some { t with time }
    else t.date.pred?.map fun date => { date, time }
  else t.date.pred?.map fun date => { t with date }

end DateTime

end PhotoIntake.Calendar
