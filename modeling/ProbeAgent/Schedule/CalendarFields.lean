import ProbeAgent.Schedule.Timing

/-!
# Lists of calendar fields

The sets of a calendar are given as lists: all six of them at once, one by one to a builder that starts
from all numbers, or in a document.
-/

namespace ProbeAgent

inductive CalendarField where
  | months
  | daysOfWeek
  | daysOfMonth
  | hours
  | minutes
  | seconds
  deriving DecidableEq

namespace CalendarField

def low : CalendarField → Nat
  | months | daysOfWeek | daysOfMonth => 1
  | hours | minutes | seconds => 0

def high : CalendarField → Nat
  | months => 12
  | daysOfWeek => 7
  | daysOfMonth => 31
  | hours => 23
  | minutes | seconds => 59

def name : CalendarField → String
  | months => "months"
  | daysOfWeek => "days_of_week"
  | daysOfMonth => "days_of_month"
  | hours => "hours"
  | minutes => "minutes"
  | seconds => "seconds"

def all : List CalendarField := [months, daysOfWeek, daysOfMonth, hours, minutes, seconds]

/-- All numbers that the field has. -/
def range (field : CalendarField) : List UInt32 :=
  (List.range' field.low (field.high + 1 - field.low)).map .ofNat

end CalendarField

/-- The numbers that a calendar allows in a field. -/
def Calendar.allowed (c : Calendar) : CalendarField → List Nat
  | .months => c.months.values
  | .daysOfWeek => c.daysOfWeek.values
  | .daysOfMonth => c.daysOfMonth.values
  | .hours => c.hours.values
  | .minutes => c.minutes.values
  | .seconds => c.seconds.values

/-- What a calendar is made from: any numbers, also such that the field does not have. -/
structure CalendarFields where
  window : Window
  numbers : CalendarField → List UInt32

namespace CalendarFields

def set (fields : CalendarFields) (field : CalendarField) : ValueSet field.low field.high :=
  .ofList ((fields.numbers field).map UInt32.toNat)

def calendar (fields : CalendarFields) : Calendar where
  window := fields.window
  months := fields.set .months
  daysOfWeek := fields.set .daysOfWeek
  daysOfMonth := fields.set .daysOfMonth
  hours := fields.set .hours
  minutes := fields.set .minutes
  seconds := fields.set .seconds

/-! ## Builders -/

def unrestricted : CalendarFields := ⟨.unbounded, CalendarField.range⟩

inductive BuilderCall where
  | start (t : Instant)
  | finish (t : Instant)
  | numbers (field : CalendarField) (values : List UInt32)

/-- The last call for a field counts. -/
def after (fields : CalendarFields) : BuilderCall → CalendarFields
  | .start t => { fields with window := { fields.window with start := some t } }
  | .finish t => { fields with window := { fields.window with finish := some t } }
  | .numbers field values =>
    { fields with numbers := fun other => if other = field then values else fields.numbers other }

def build (calls : List BuilderCall) : Calendar := (calls.foldl after unrestricted).calendar

/-! ## Written form -/

def toJson (fields : CalendarFields) : Json :=
  .obj (fields.window.toFields ++ CalendarField.all.map fun field =>
    (field.name, .arr ((fields.numbers field).map fun n => .int n.toNat)))

/-- The numbers of a field; a field that is left out has none. -/
def numbersOf (values : Doc.FieldValues) (field : CalendarField) : Decoded (List UInt32) :=
  values.get field.name [] (Doc.list Doc.uint32)

def ofDoc (source : DocSource) (d : Doc) : Decoded CalendarFields := do
  let values ← d.record source "CalendarFields" Calendar.rules
  let window ← Window.ofFields values
  let months ← numbersOf values .months
  let daysOfWeek ← numbersOf values .daysOfWeek
  let daysOfMonth ← numbersOf values .daysOfMonth
  let hours ← numbersOf values .hours
  let minutes ← numbersOf values .minutes
  let seconds ← numbersOf values .seconds
  return ⟨window, fun
    | .months => months
    | .daysOfWeek => daysOfWeek
    | .daysOfMonth => daysOfMonth
    | .hours => hours
    | .minutes => minutes
    | .seconds => seconds⟩

end CalendarFields

end ProbeAgent
