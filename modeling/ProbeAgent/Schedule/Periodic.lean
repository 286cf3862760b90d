import ProbeAgent.Schedule.Window

/-!
# Periodic schedules

Runs lie on a grid: the start of the window, or else the last run, and every interval after it.
`Periodic.nextRunFrom` is the first point of the grid that is not before the reference and more than
a second after the last run.
-/

namespace ProbeAgent

structure Periodic where
  window : Window
  -- Milliseconds between runs.
  interval : UInt64
  deriving DecidableEq

namespace Periodic

/-- The longest interval that has runs, about ten years. -/
def maxInterval : Nat := 315576000000

/-- The distance of two points of the grid in nanoseconds, if the interval has runs. -/
def step? (p : Periodic) : Option Int :=
  if 0 < p.interval.toNat ∧ p.interval.toNat ≤ maxInterval then
    some (p.interval.toNat * nanosPerMilli)
  else none

/-- The interval has runs, a start has a next point on the grid, and the window is not inverted. -/
def isValid (p : Periodic) : Bool :=
  let stepping :=
    match p.step?, p.window.start with
    | some step, some start => (start.add? step).isSome
    | some _, none => true
    | none, _ => false
  stepping && p.window.isOrdered

/-- The least multiple of `step` that is not below `n`. -/
def roundUp (n step : Int) : Int :=
  (n / step + if n % step ≠ 0 then 1 else 0) * step

/-- The first point of the grid from `anchor` on that is not before the reference. -/
def firstPoint (anchor : Instant) (step : Int) (reference : Instant) : Option Instant :=
  if anchor < reference then
    -- The reference counts in whole milliseconds.
    let elapsed := (reference.since anchor).tdiv nanosPerMilli
    anchor.add? (roundUp elapsed (step / nanosPerMilli) * nanosPerMilli)
  else some anchor

/-- Instants in order, as one number. -/
def position (t : Instant) : Int := t.second * 2000000000 + t.nano

/-- The first of `run`, `run + step`, … that is more than a second after the last run; `none` if the
dates run out before. -/
def passLast (last : Instant) (step : Int) (pos : 0 < step) (run : Instant) : Option Instant :=
  if _h : run.since last ≤ nanosPerSecond then
    match _hn : run.add? step with
    | none => none
    | some next => passLast last step pos next
  else some run
termination_by ((last.second + 5) * 2000000000 - position run).toNat
decreasing_by
  -- Every run that is passed over lies before the last run and the few seconds after it.
  have hlt := (Instant.lt_def _ _).1 (Instant.lt_of_add? _hn pos)
  have hle := Instant.second_le_of_since_le _h
  have h1 := run.nano_lt
  have h2 := next.nano_lt
  simp only [position]
  omega

theorem step?_pos {p : Periodic} {step : Int} (h : p.step? = some step) : 0 < step := by
  unfold step? at h
  split at h
  · cases h
    simp only [nanosPerMilli]
    omega
  · contradiction

def nextRunFrom (p : Periodic) (last : Option Instant) (reference : Instant) : Option Instant :=
  match h : p.step? with
  | none => none
  | some step =>
    match p.window.start <|> last with
    -- The grid begins with the reference itself, wherever the window ends.
    | none => some reference
    | some anchor => do
      let run ← firstPoint anchor step reference
      let run ←
        match last with
        | some last => passLast last step (step?_pos h) run
        | none => some run
      p.window.clip run

end Periodic

end ProbeAgent
