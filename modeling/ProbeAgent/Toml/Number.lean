import ProbeAgent.Text.Decimal
import ProbeAgent.Time.Date
import ProbeAgent.Toml.Quoted
import ProbeAgent.Toml.Table

/-!
# Numbers and date-times in TOML

Single underscores may stand between two digits of a number.  An integer has 64 bits; it is decimal
without leading zeros and with or without a sign, or hexadecimal, octal or binary without one.  A
fraction has a point or an exponent, or is infinity or no number.  A date-time is a date, a time of
day or both; both may be followed by the distance from universal time.
-/

namespace ProbeAgent

namespace TomlText

open Text

/-- Whether digits and underscores begin and end with a digit and have no two underscores together. -/
def isGrouped : List Char → Bool
  | [] => false
  | '_' :: _ => false
  | [_] => true
  | _ :: '_' :: rest => isGrouped rest
  | _ :: rest => isGrouped rest

/-- The digits in front, without the underscores that group them. -/
def readDigits (isDigit : Char → Bool) (text : List Char) : Option (List Char × List Char) :=
  let isPart c := isDigit c || c = '_'
  let run := text.takeWhile isPart
  if isGrouped run then some (run.filter (· ≠ '_'), text.dropWhile isPart) else none

/-- Whether there is a minus, and the text after a sign that may stand in front. -/
def readSign : List Char → Bool × List Char
  | '-' :: rest => (true, rest)
  | '+' :: rest => (false, rest)
  | text => (false, text)

/-- The digits of a decimal integer: a zero alone, or digits that begin with another one. -/
def readWhole : List Char → Option (List Char × List Char)
  | '0' :: rest => some (['0'], rest)
  | text => readDigits Char.isDigit text

def dropWord? (word : String) (text : List Char) : Option (List Char) :=
  if word.toList.isPrefixOf text then some (text.drop word.length) else none

def integerBound : Nat := Nat.pow 2 63

def integerOf (negative : Bool) (n : Nat) : Option Toml :=
  if negative then (if n ≤ integerBound then some (.integer (-n)) else none)
  else (if n < integerBound then some (.integer n) else none)

/-- An integer in another base, after the two characters that tell the base. -/
def readInBase (base : Nat) (isDigit : Char → Bool) (text : List Char) :
    Option (Toml × List Char) := do
  let (digits, rest) ← readDigits isDigit text
  let n ← integerOf false (digits.foldl (fun n c => base * n + hexValue c) 0)
  return (n, rest)

def readPlaces : List Char → Option (Option (List Char) × List Char)
  | '.' :: rest => do
    let (digits, rest) ← readDigits Char.isDigit rest
    return (some digits, rest)
  | text => some (none, text)

def readExponent : List Char → Option (Option Int × List Char)
  | c :: rest => do
    if c = 'e' ∨ c = 'E' then
      let (negative, rest) := readSign rest
      let (digits, rest) ← readDigits Char.isDigit rest
      let n : Int := digitsValue digits
      return (some (if negative then -n else n), rest)
    else return (none, c :: rest)
  | [] => some (none, [])

/-- The least size that rounds to infinity instead of to a double. -/
def infinityBound : Nat := Nat.pow 2 1024 - Nat.pow 2 970

/-- Whether `significand * 10 ^ exponent` rounds to infinity.  The number of digits decides unless
the power of ten is small. -/
def roundsToInfinity (significand : Nat) (exponent : Int) : Bool :=
  if significand = 0 then false
  else
    let size := (Nat.toDigits 10 significand).length + exponent
    if size > 400 then true
    else if size < 0 then false
    else if 0 ≤ exponent then infinityBound ≤ significand * Nat.pow 10 exponent.natAbs
    else infinityBound * Nat.pow 10 exponent.natAbs ≤ significand

/-- A number with its sign.  A fraction must not exceed all doubles; below them there is negative
infinity. -/
def readNumber (text : List Char) : Option (Toml × List Char) := do
  let (negative, unsigned) := readSign text
  match dropWord? "inf" unsigned, dropWord? "nan" unsigned with
  | some rest, _ => return (.fraction, rest)
  | _, some rest => return (.fraction, rest)
  | none, none =>
    let (whole, rest) ← readWhole unsigned
    let (places, rest) ← readPlaces rest
    let (exponent, rest) ← readExponent rest
    match places, exponent with
    | none, none => return (← integerOf negative (digitsValue whole), rest)
    | places, exponent =>
      let places := places.getD []
      let scale := exponent.getD 0 - places.length
      if !negative && roundsToInfinity (digitsValue (whole ++ places)) scale then none
      else return (.fraction, rest)

/-! ## Date-times -/

/-- A number of exactly so many digits between two bounds. -/
def readField (width low high : Nat) (text : List Char) : Option (Nat × List Char) :=
  let (digits, rest) := spanDigits width text
  let n := digitsValue digits
  if digits.length = width ∧ low ≤ n ∧ n ≤ high then some (n, rest) else none

def readChar (expected : Char) : List Char → Option (List Char)
  | c :: rest => if c = expected then some rest else none
  | [] => none

def readDate (text : List Char) : Option (List Char) := do
  let (year, text) ← readField 4 0 9999 text
  let text ← readChar '-' text
  let (month, text) ← readField 2 1 12 text
  let text ← readChar '-' text
  let (day, text) ← readField 2 1 31 text
  if (Date.ofYmd? year month day).isSome then some text else none

def readTime (text : List Char) : Option (List Char) := do
  let (_, text) ← readField 2 0 23 text
  let text ← readChar ':' text
  let (_, text) ← readField 2 0 59 text
  let text ← readChar ':' text
  let (_, text) ← readField 2 0 60 text
  match text with
  | '.' :: c :: rest => if c.isDigit then some (rest.dropWhile Char.isDigit) else some text
  | _ => some text

def readOffset (text : List Char) : Option (List Char) :=
  match text with
  | 'Z' :: rest => some rest
  | 'z' :: rest => some rest
  | c :: rest =>
    if c = '+' ∨ c = '-' then do
      let (_, rest) ← readField 2 0 23 rest
      let rest ← readChar ':' rest
      let (_, rest) ← readField 2 0 59 rest
      return rest
    else some text
  | [] => some []

/-- The time after a date, separated by the letter T or a space, if there is one. -/
def readTimeOfDate (text : List Char) : Option (List Char) :=
  match text with
  | c :: rest =>
    if c = 'T' ∨ c = 't' ∨ c = ' ' then
      match readTime rest with
      | some rest => readOffset rest
      | none => some text
    else some text
  | [] => some []

def readDateTime (text : List Char) : Option (List Char) :=
  ((readDate text).bind readTimeOfDate).or (readTime text)

def readNumberOrDateTime (text : List Char) : Option (Toml × List Char) :=
  match readDateTime text with
  | some rest => some (.dateTime, rest)
  | none =>
    match text with
    | '0' :: 'x' :: rest => readInBase 16 isHexDigit rest
    | '0' :: 'o' :: rest => readInBase 8 (fun c => decide ('0' ≤ c) && decide (c ≤ '7')) rest
    | '0' :: 'b' :: rest => readInBase 2 (fun c => c = '0' || c = '1') rest
    | _ => readNumber text

end TomlText

end ProbeAgent
