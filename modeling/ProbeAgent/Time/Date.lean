/-!
# Days of the Gregorian calendar

A `Date` is a day of the Gregorian calendar, extended backwards and forwards over the years
-262143 to 262142.  `Date.number` counts the days from 1970-01-01 and `Date.ofNumber?` is the way
back; everything that compares or adds goes through the number.
-/

namespace ProbeAgent

def isLeapYear (year : Int) : Bool :=
  year % 4 == 0 && (year % 100 != 0 || year % 400 == 0)

def daysInMonth (year : Int) (month : Nat) : Nat :=
  if month = 2 then (if isLeapYear year then 29 else 28)
  else if month = 4 ∨ month = 6 ∨ month = 9 ∨ month = 11 then 30
  else 31

def minYear : Int := -262143

def maxYear : Int := 262142

structure Date where
  year : Int
  month : Nat
  day : Nat
  year_mem : minYear ≤ year ∧ year ≤ maxYear
  month_mem : 1 ≤ month ∧ month ≤ 12
  day_mem : 1 ≤ day ∧ day ≤ daysInMonth year month
  deriving DecidableEq

namespace Date

/-- Refuses days that the calendar does not have, such as 30 February. -/
def ofYmd? (year : Int) (month day : Nat) : Option Date :=
  if hy : minYear ≤ year ∧ year ≤ maxYear then
    if hm : 1 ≤ month ∧ month ≤ 12 then
      if hd : 1 ≤ day ∧ day ≤ daysInMonth year month then
        some ⟨year, month, day, hy, hm, hd⟩
      else none
    else none
  else none

/-! ## Day numbers -/

/-- Days from 1970-01-01 to the first day of `year`. -/
def daysBeforeYear (year : Int) : Int :=
  365 * (year - 1) + (year - 1) / 4 - (year - 1) / 100 + (year - 1) / 400 - 719162

def daysBeforeMonth (year : Int) (month : Nat) : Nat :=
  let common :=
    match month with
    | 0 | 1 => 0
    | 2 => 31
    | 3 => 59
    | 4 => 90
    | 5 => 120
    | 6 => 151
    | 7 => 181
    | 8 => 212
    | 9 => 243
    | 10 => 273
    | 11 => 304
    | _ => 334
  if month > 2 ∧ isLeapYear year then common + 1 else common

def number (date : Date) : Int :=
  daysBeforeYear date.year + (daysBeforeMonth date.year date.month + (date.day - 1) : Nat)

/-- The year of the day with this number: 146097 days make 400 years, so the quotient is off by at
most one year. -/
def yearOfNumber (number : Int) : Int :=
  let guess := (number + 719162) * 400 / 146097 + 1
  if number < daysBeforeYear guess then guess - 1
  else if daysBeforeYear (guess + 1) ≤ number then guess + 1
  else guess

/-- The month that holds the day at this offset, from 0, into `year`. -/
def monthOfOffset (year : Int) (offset : Nat) : Nat :=
  if offset < daysBeforeMonth year 2 then 1
  else if offset < daysBeforeMonth year 3 then 2
  else if offset < daysBeforeMonth year 4 then 3
  else if offset < daysBeforeMonth year 5 then 4
  else if offset < daysBeforeMonth year 6 then 5
  else if offset < daysBeforeMonth year 7 then 6
  else if offset < daysBeforeMonth year 8 then 7
  else if offset < daysBeforeMonth year 9 then 8
  else if offset < daysBeforeMonth year 10 then 9
  else if offset < daysBeforeMonth year 11 then 10
  else if offset < daysBeforeMonth year 12 then 11
  else 12

def ofNumber? (number : Int) : Option Date :=
  let year := yearOfNumber number
  let offset := (number - daysBeforeYear year).toNat
  let month := monthOfOffset year offset
  ofYmd? year month (offset - daysBeforeMonth year month + 1)

/-! ## Days of the week -/

/-- The day of the week of the day with this number: 1 is Monday, 7 is Sunday. -/
def weekdayOfNumber (number : Int) : Nat :=
  ((number + 3) % 7).toNat + 1

def weekday (date : Date) : Nat :=
  weekdayOfNumber date.number

def weekdayAbbreviation (date : Date) : String :=
  match date.weekday with
  | 1 => "Mon"
  | 2 => "Tue"
  | 3 => "Wed"
  | 4 => "Thu"
  | 5 => "Fri"
  | 6 => "Sat"
  | _ => "Sun"

theorem ofYmd?_eq_some {year : Int} {month day : Nat} {date : Date}
    (h : ofYmd? year month day = some date) :
    date.year = year ∧ date.month = month ∧ date.day = day := by
  unfold ofYmd? at h
  split at h <;> try contradiction
  split at h <;> try contradiction
  split at h <;> try contradiction
  cases h
  exact ⟨rfl, rfl, rfl⟩

@[simp] theorem ofYmd?_self (date : Date) :
    ofYmd? date.year date.month date.day = some date := by
  simp [ofYmd?, date.year_mem, date.month_mem, date.day_mem]

end Date

end ProbeAgent
