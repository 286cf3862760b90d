import ProbeAgent.Schedule.Calendar
import ProbeAgent.Schedule.Periodic
import ProbeAgent.Json.Decode

/-!
# When a task runs

A `Schedule` says when runs are wanted: once and at once, periodically, or at calendar times.  A
`Timing` adds the time of the last run, so that one instant is never used twice.  The last run is
state of a running agent: timings are compared and written without it.
-/

namespace ProbeAgent

inductive Schedule where
  | immediate
  | periodic (p : Periodic)
  | calendar (c : Calendar)
  deriving DecidableEq

structure Timing where
  schedule : Schedule
  lastRun : Option Instant
  deriving DecidableEq

namespace Schedule

def typeName : Schedule → String
  | immediate => "immediate"
  | periodic _ => "periodic"
  | calendar _ => "calendar"

def isValid : Schedule → Bool
  | immediate => true
  | periodic p => p.isValid
  | calendar c => c.isValid

def finish : Schedule → Option Instant
  | immediate => none
  | periodic p => p.window.finish
  | calendar c => c.window.finish

def start : Schedule → Option Instant
  | immediate => none
  | periodic p => p.window.start
  | calendar c => c.window.start

def fresh (schedule : Schedule) : Timing := ⟨schedule, none⟩

end Schedule

namespace Timing

def nextRunFrom (t : Timing) (reference : Instant) : Checked (Option Instant) :=
  match t.schedule with
  | .immediate => return if t.lastRun.isNone then some reference else none
  | .periodic p => return p.nextRunFrom t.lastRun reference
  | .calendar c => c.nextRunFrom t.lastRun reference

def ranAt (t : Timing) (now : Instant) : Timing :=
  { t with lastRun := some now }

def hasNextRun (t : Timing) (now : Instant) : Checked Bool :=
  (·.isSome) <$> t.nextRunFrom now

/-- Timings are compared without the last run. -/
def sameSchedule (a b : Timing) : Bool :=
  decide (a.schedule = b.schedule)

/-- Up to `count` runs from the reference on, each taken at its time, and the timing after them. -/
def upcoming (t : Timing) (reference : Instant) : (count : Nat) → Checked (List Instant × Timing)
  | 0 => return ([], t)
  | count + 1 => do
    match ← t.nextRunFrom reference with
    | none => return ([], t)
    | some run =>
      let after := t.ranAt run
      -- Whether a further run exists is asked at once, and may have no answer.
      let _ ← after.hasNextRun run
      let (runs, last) ← upcoming after run count
      return (run :: runs, last)

@[simp] theorem ranAt_schedule (t : Timing) (now : Instant) :
    (t.ranAt now).schedule = t.schedule := rfl

@[simp] theorem ranAt_lastRun (t : Timing) (now : Instant) : (t.ranAt now).lastRun = some now := rfl

end Timing

/-! ## Written form -/

namespace Instant

def toJson (t : Instant) : Json := .str t.render

end Instant

namespace Window

def toFields (window : Window) : List (String × Json) :=
  Json.optionalField "start" (window.start.map Instant.toJson)
    ++ Json.optionalField "end" (window.finish.map Instant.toJson)

def rules : List Doc.FieldRule :=
  [.of "start" .allowed (Doc.option Doc.instant), .of "end" .allowed (Doc.option Doc.instant)]

def ofFields (fields : Doc.FieldValues) : Decoded Window := do
  return {
    start := ← fields.get "start" none (Doc.option Doc.instant)
    finish := ← fields.get "end" none (Doc.option Doc.instant) }

end Window

namespace ValueSet

variable {low high : Nat}

def toJson (set : ValueSet low high) : Json :=
  .arr (set.values.map Json.ofNat)

def numbers (d : Doc) : Decoded (List Nat) :=
  (·.map UInt32.toNat) <$> Doc.list Doc.uint32 d

/-- A set that is left out is empty. -/
def ofField (fields : Doc.FieldValues) (name : String) : Decoded (ValueSet low high) :=
  ofList <$> fields.get name [] numbers

end ValueSet

namespace Calendar

def toJson (c : Calendar) : Json :=
  .obj (c.window.toFields ++ [
    ("months", c.months.toJson),
    ("days_of_week", c.daysOfWeek.toJson),
    ("days_of_month", c.daysOfMonth.toJson),
    ("hours", c.hours.toJson),
    ("minutes", c.minutes.toJson),
    ("seconds", c.seconds.toJson)])

def rules : List Doc.FieldRule :=
  Window.rules ++ ["months", "days_of_week", "days_of_month", "hours", "minutes", "seconds"].map
    (.of · .allowed ValueSet.numbers)

def ofDoc (source : DocSource) (d : Doc) : Decoded Calendar := do
  let fields ← d.record source "CalendarFields" rules
  return {
    window := ← Window.ofFields fields
    months := ← ValueSet.ofField fields "months"
    daysOfWeek := ← ValueSet.ofField fields "days_of_week"
    daysOfMonth := ← ValueSet.ofField fields "days_of_month"
    hours := ← ValueSet.ofField fields "hours"
    minutes := ← ValueSet.ofField fields "minutes"
    seconds := ← ValueSet.ofField fields "seconds" }

end Calendar

namespace Periodic

def toJson (p : Periodic) : Json :=
  .obj (p.window.toFields ++ [("interval", .int p.interval.toNat)])

def rules : List Doc.FieldRule :=
  Window.rules ++ [.of "interval" .refused Doc.uint64]

def ofDoc (source : DocSource) (d : Doc) : Decoded Periodic := do
  let fields ← d.record source "PeriodicTiming" rules
  return {
    window := ← Window.ofFields fields
    interval := ← fields.require "interval" Doc.uint64 }

end Periodic

namespace Schedule

/-- An object of one field, named for the kind of schedule. -/
def toJson : Schedule → Json
  | immediate => .obj [("immediate", .obj [])]
  | periodic p => .obj [("periodic", p.toJson)]
  | calendar c => .obj [("calendar", c.toJson)]

def ofDoc (source : DocSource) (d : Doc) : Decoded Schedule := do
  let t ← d.tagged source
  if t.tag = "immediate" then
    t.require fun d => do
      let _ ← d.record source "ImmediateTiming" []
      return immediate
  else if t.tag = "periodic" then t.require fun d => periodic <$> Periodic.ofDoc source d
  else if t.tag = "calendar" then t.require fun d => calendar <$> Calendar.ofDoc source d
  else throw (.unknownVariant t.tag ["immediate", "periodic", "calendar"])

end Schedule

namespace Timing

def toJson (t : Timing) : Json := t.schedule.toJson

def ofDoc (source : DocSource) (d : Doc) : Decoded Timing :=
  Schedule.fresh <$> Schedule.ofDoc source d

end Timing

end ProbeAgent
