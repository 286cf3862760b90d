import ProbeAgent.Time.Instant

/-!
# Clocks and their corrections

A clock shows an instant and can be moved by a span of milliseconds.  Computations that leave the
years that have dates, or the spans that have a size, end in a `DateOverflow`.
-/

namespace ProbeAgent

/-- A computation with instants left the years that have dates. -/
inductive DateOverflow where
  | yearOutOfRange
  deriving DecidableEq, Repr

abbrev Checked (α : Type) := Except DateOverflow α

/-- The value of a computation that cannot go on without one. -/
def Checked.ofOption {α : Type} : Option α → Checked α
  | some a => return a
  | none => throw .yearOutOfRange

/-- The longest span in milliseconds, in either direction. -/
def maxSpan : Int := Int.pow 2 63 - 1

def millisSpan (millis : Int) : Checked Int :=
  if -maxSpan ≤ millis ∧ millis ≤ maxSpan then return millis * nanosPerMilli
  else throw .yearOutOfRange

namespace Instant

def advance (t : Instant) (millis : Int) : Checked Instant := do
  Checked.ofOption (t.add? (← millisSpan millis))

end Instant

structure ClockCorrection where
  millis : Int
  millis_mem : -maxSpan ≤ millis ∧ millis ≤ maxSpan
  deriving DecidableEq

namespace ClockCorrection

def zero : ClockCorrection := ⟨0, by decide⟩

def ofMillis (millis : Int) : Checked ClockCorrection :=
  if h : -maxSpan ≤ millis ∧ millis ≤ maxSpan then return ⟨millis, h⟩ else throw .yearOutOfRange

end ClockCorrection

end ProbeAgent
