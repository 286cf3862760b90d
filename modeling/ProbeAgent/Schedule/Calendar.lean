import ProbeAgent.Schedule.ValueSet
import ProbeAgent.Schedule.Window

/-!
# Calendar schedules

A `Calendar` names the months, days of the week (1 is Monday), days of the month, hours, minutes and
seconds at which runs take place.  `Calendar.nextRunFrom` finds the first such second from a
reference on, looking at the year of the reference and the two after it.
-/

namespace ProbeAgent

structure Calendar where
  window : Window
  months : ValueSet 1 12
  daysOfWeek : ValueSet 1 7
  daysOfMonth : ValueSet 1 31
  hours : ValueSet 0 23
  minutes : ValueSet 0 59
  seconds : ValueSet 0 59
  deriving DecidableEq

structure ClockTime where
  hour : Nat
  minute : Nat
  second : Nat
  deriving DecidableEq, Repr

/-- The time of day of an instant; a leap second shows as second 59. -/
def Instant.clockTime (t : Instant) : ClockTime :=
  ⟨t.hour, t.minute, t.secondOfMinute⟩

namespace Calendar

def everySecond : Calendar where
  window := .unbounded
  months := .full 1 12
  daysOfWeek := .full 1 7
  daysOfMonth := .full 1 31
  hours := .full 0 23
  minutes := .full 0 59
  seconds := .full 0 59

/-- How many years after the year of the reference are searched. -/
def lookaheadYears : Int := 2

def hasEmptyField (c : Calendar) : Bool :=
  c.months.isEmpty || c.daysOfWeek.isEmpty || c.daysOfMonth.isEmpty || c.hours.isEmpty
    || c.minutes.isEmpty || c.seconds.isEmpty

/-- Complete: every set has a value, and both ends of the window are given. -/
def isValid (c : Calendar) : Bool :=
  c.window.start.isSome && c.window.finish.isSome && !c.hasEmptyField

/-! ## Searching -/

/-- The first allowed time of day at or after a given one. -/
def findTime (c : Calendar) (time : ClockTime) : Option ClockTime :=
  c.hours.values.findSome? fun hour =>
    if hour < time.hour then none
    else
      -- A minute before the given one only counts in a later hour, and so on.
      c.minutes.values.findSome? fun minute =>
        if hour = time.hour ∧ minute < time.minute then none
        else
          c.seconds.values.findSome? fun second =>
            if hour = time.hour ∧ minute = time.minute ∧ second < time.second then none
            else some ⟨hour, minute, second⟩

def firstTime (c : Calendar) : Option ClockTime := do
  return ⟨← c.hours.values.head?, ← c.minutes.values.head?, ← c.seconds.values.head?⟩

def runOn? (c : Calendar) (first : Instant) (date : Date) : Option Instant :=
  if date.number < first.dayNumber ∨ date.weekday ∉ c.daysOfWeek then none
  else do
    let time ← if date.number = first.dayNumber then c.findTime first.clockTime else c.firstTime
    Instant.ofDateTime? date time.hour time.minute time.second 0

/-- The first run from `first` on, in its year or a later one up to `lastYear`. -/
def earliestFrom (c : Calendar) (first : Instant) (lastYear : Int) : Option Instant :=
  let years := (List.range (lastYear + 1 - first.year).toNat).map fun (n : Nat) => first.year + n
  years.findSome? fun year =>
    c.months.values.findSome? fun month =>
      c.daysOfMonth.values.findSome? fun day =>
        (Date.ofYmd? year month day).bind (c.runOn? first)

/-- The first whole second that may have a run: from the reference on, and from the start of the
window on. -/
def firstSecond (c : Calendar) (reference : Instant) : Checked Instant := do
  let first ← Checked.ofOption reference.ceil?
  match c.window.start with
  | some start => if first < start then Checked.ofOption start.ceil? else return first
  | none => return first

/-- The first run from the reference on that is more than a second after the last one. -/
def nextRunFrom (c : Calendar) (last : Option Instant) (reference : Instant) :
    Checked (Option Instant) := do
  if c.hasEmptyField then return none
  let first ← c.firstSecond reference
  let lastYear := first.year + lookaheadYears
  match c.earliestFrom first lastYear, last with
  | none, _ => return none
  | some run, none => return c.window.clip run
  | some run, some last =>
    if run.since last ≤ nanosPerSecond then
      -- The search goes on two seconds after the last run, up to the same year as before.
      let first ← Checked.ofOption (last.truncate.add? (2 * nanosPerSecond))
      return (c.earliestFrom first lastYear).bind c.window.clip
    else
      return c.window.clip run

end Calendar

end ProbeAgent
