import ProbeAgent.Time.Instant
import ProbeAgent.Text.Blank
import ProbeAgent.Text.Decimal

/-!
# The text of a date-time

`Instant.render` writes `YYYY-MM-DDTHH:MM:SS` with the shortest of 0, 3, 6 or 9 digits of fraction
that is exact.  `Instant.parse` is more lenient: blanks before numbers and separators, missing
leading zeros, any number of fraction digits (beyond nine they are dropped) and second 60 for a leap
second.
-/

namespace ProbeAgent

open Text

/-- Years from 0 to 9999 have four digits, others a sign too. -/
def renderYear (year : Int) : String :=
  if 0 ≤ year ∧ year ≤ 9999 then paddedNat 4 year.toNat else paddedSigned 5 year

namespace Date

def render (date : Date) : String :=
  renderYear date.year ++ "-" ++ paddedNat 2 date.month ++ "-" ++ paddedNat 2 date.day

end Date

namespace Instant

def renderDate (t : Instant) : String :=
  match Date.ofNumber? t.dayNumber with
  | some date => date.render
  | none => ""

/-- Hours, minutes and seconds; a leap second is second 60. -/
def renderTime (t : Instant) : String :=
  let second := if t.isLeap then t.secondOfMinute + 1 else t.secondOfMinute
  paddedNat 2 t.hour ++ ":" ++ paddedNat 2 t.minute ++ ":" ++ paddedNat 2 second

/-- The fraction of the second with its point, empty for a whole second. -/
def renderFraction (t : Instant) : String :=
  let nano := t.nano % 1000000000
  if nano = 0 then ""
  else if nano % 1000000 = 0 then "." ++ paddedNat 3 (nano / 1000000)
  else if nano % 1000 = 0 then "." ++ paddedNat 6 (nano / 1000)
  else "." ++ paddedNat 9 nano

def render (t : Instant) : String :=
  t.renderDate ++ "T" ++ t.renderTime ++ t.renderFraction

def renderWithWeekday (t : Instant) : String :=
  let weekday := ((Date.ofNumber? t.dayNumber).map Date.weekdayAbbreviation).getD ""
  t.renderDate ++ " " ++ t.renderTime ++ " " ++ weekday

def renderSpaced (t : Instant) : String :=
  t.renderDate ++ " " ++ t.renderTime

end Instant

/-! ## Reading

Each step reads a part from the front of a text and returns it with the rest. -/

inductive DateTimeError where
  | tooShort
  | invalid
  | outOfRange
  | trailing
  deriving DecidableEq, Repr

def DateTimeError.message : DateTimeError → String
  | .tooShort => "premature end of input"
  | .invalid => "input contains invalid characters"
  | .outOfRange => "input is out of range"
  | .trailing => "trailing input"

namespace Instant

def numberLimit : Nat := Nat.pow 2 63 - 1

/-- At least one and at most `width` digits (any number if `width` is absent). -/
def readNumber (width : Option Nat) (text : List Char) : Except DateTimeError (Nat × List Char) :=
  if text.isEmpty then throw .tooShort
  else
    let (digits, rest) := spanDigits (width.getD text.length) text
    if digits.isEmpty then throw .invalid
    else if digitsValue digits > numberLimit then throw .outOfRange
    else return (digitsValue digits, rest)

/-- A year: up to four digits, or a sign and any number of digits. -/
def readYear (text : List Char) : Except DateTimeError (Int × List Char) :=
  match trimStart text with
  | '-' :: rest => do
    let (n, rest) ← readNumber none rest
    return (-(n : Int), rest)
  | '+' :: rest => do
    let (n, rest) ← readNumber none rest
    return ((n : Int), rest)
  | text => do
    let (n, rest) ← readNumber (some 4) text
    return ((n : Int), rest)

def readField (lo hi : Nat) (text : List Char) : Except DateTimeError (Nat × List Char) := do
  let (n, rest) ← readNumber (some 2) (trimStart text)
  if lo ≤ n ∧ n ≤ hi then return (n, rest) else throw .outOfRange

/-- A separator that blanks may precede. -/
def readSeparator (separator : Char) (text : List Char) : Except DateTimeError (List Char) :=
  match trimStart text with
  | [] => throw .tooShort
  | c :: rest => if c = separator then return rest else throw .invalid

/-- The fraction of a second in nanoseconds: a point and at least one digit, or nothing at all. -/
def readFraction (text : List Char) : Except DateTimeError (Nat × List Char) :=
  match text with
  | '.' :: rest => do
    let (_, after) ← readNumber (some 9) rest
    let digits := rest.take (rest.length - after.length)
    let nano := digitsValue digits * Nat.pow 10 (9 - digits.length)
    return (nano, after.dropWhile Char.isDigit)
  | _ => return (0, text)

/-- The bound on the size of a year before the range of dates is looked at. -/
def yearLimit : Int := Int.pow 2 31

def readInstant (text : List Char) : Except DateTimeError (Instant × List Char) := do
  let (year, text) ← readYear text
  if year < -yearLimit ∨ yearLimit ≤ year then throw .outOfRange
  let text ← readSeparator '-' text
  let (month, text) ← readField 1 12 text
  let text ← readSeparator '-' text
  let (day, text) ← readField 1 31 text
  let text ← readSeparator 'T' text
  let (hour, text) ← readField 0 23 text
  let text ← readSeparator ':' text
  let (minute, text) ← readField 0 59 text
  let text ← readSeparator ':' text
  let (second, text) ← readField 0 60 text
  let (nano, text) ← readFraction text
  let (second, nano) := if second = 60 then (59, nano + 1000000000) else (second, nano)
  let text := trimStart text
  unless text.isEmpty do throw .trailing
  match (Date.ofYmd? year month day).bind (ofDateTime? · hour minute second nano) with
  | some t => return (t, text)
  | none => throw .outOfRange

def parse (text : String) : Except DateTimeError Instant :=
  Prod.fst <$> readInstant text.toList

end Instant

end ProbeAgent
