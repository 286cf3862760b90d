/-!
# The shortest decimal that reads back

A binary fraction is `significand * 2 ^ exponent`.  The reals that round to it form an interval that
holds its ends exactly if the significand is even.  `Decimal.shortest` looks for the coarsest power
of ten with a multiple in that interval, and of two multiples takes the nearer one, of two at the
same distance the even one.
-/

namespace ProbeAgent.Text

structure Decimal where
  digits : Nat
  exponent : Int
  deriving DecidableEq, Repr

/-- A positive binary fraction: the number itself and the ends of its interval of rounding, as
numerators over one denominator. -/
structure BinaryInterval where
  value : Nat
  low : Nat
  high : Nat
  denominator : Nat
  closed : Bool

namespace BinaryInterval

/-- The interval of a double with a nonzero significand.  Below a power of two the neighbours are
half as far as above it, except at the smallest exponent. -/
def ofDouble (significand : Nat) (exponent : Int) : BinaryInterval :=
  let up := exponent.toNat
  let down := (-exponent).toNat
  let atPower := significand == Nat.pow 2 52 && exponent > -1074
  let scale := Nat.pow 2 up
  -- In quarters of a unit of the last place.
  { value := 4 * significand * scale
    low := (4 * significand - (if atPower then 1 else 2)) * scale
    high := (4 * significand + 2) * scale
    denominator := 4 * Nat.pow 2 down
    closed := significand % 2 == 0 }

def holds (i : BinaryInterval) (n : Nat) : Bool :=
  if i.closed then decide (i.low ≤ n) && decide (n ≤ i.high)
  else decide (i.low < n) && decide (n < i.high)

/-- The exponent of the leading decimal digit of `value / denominator`. -/
def leadingExponent (i : BinaryInterval) : Int :=
  if i.denominator ≤ i.value then
    ((Nat.toDigits 10 (i.value / i.denominator)).length : Int) - 1
  else
    let ceiling := (i.denominator + i.value - 1) / i.value
    0 - (Nat.toDigits 10 (ceiling - 1)).length

def inUnits (i : BinaryInterval) (exponent : Int) : BinaryInterval :=
  let up := Nat.pow 10 (-exponent).toNat
  { i with
    value := i.value * up
    low := i.low * up
    high := i.high * up
    denominator := i.denominator * Nat.pow 10 exponent.toNat }

def nearest? (i : BinaryInterval) : Option Nat :=
  let below := i.value / i.denominator
  let above := below + 1
  let below? := i.holds (below * i.denominator)
  let above? := i.holds (above * i.denominator)
  if below? && above? then
    let rest := 2 * (i.value % i.denominator)
    if rest < i.denominator || (rest == i.denominator && below % 2 == 0) then some below
    else some above
  else if below? then some below
  else if above? then some above
  else none

end BinaryInterval

namespace Decimal

def trimmed (d : Decimal) : Decimal :=
  let digits := Nat.toDigits 10 d.digits
  let zeros := (digits.reverse.takeWhile (· = '0')).length
  if d.digits = 0 then d else ⟨d.digits / Nat.pow 10 zeros, d.exponent + zeros⟩

/-- The first of `count` grids, from `exponent` downwards, with a hit. -/
def search (i : BinaryInterval) : (count : Nat) → (exponent : Int) → Decimal
  | 0, exponent => ⟨i.value / i.denominator, exponent⟩
  | count + 1, exponent =>
    match (i.inUnits exponent).nearest? with
    | some n => trimmed ⟨n, exponent⟩
    | none => search i count (exponent - 1)

/-- Seventeen digits always suffice for a double. -/
def shortest (significand : Nat) (exponent : Int) : Decimal :=
  if significand = 0 then ⟨0, 0⟩
  else
    let i := BinaryInterval.ofDouble significand exponent
    search i 18 i.leadingExponent

end Decimal

/-! ## Doubles -/

/-- Significand and exponent of the size of a finite double. -/
def doubleParts (bits : UInt64) : Nat × Int :=
  let fraction : Nat := bits.toNat % Nat.pow 2 52
  let biased : Nat := bits.toNat / Nat.pow 2 52 % Nat.pow 2 11
  if biased = 0 then (fraction, -1074) else (Nat.pow 2 52 + fraction, (biased : Int) - 1075)

/-- Where a number's text turns from positional to scientific. -/
structure NumberFormat where
  -- Leading exponents from here …
  lowest : Int
  -- … to here are written positionally.
  highest : Int

/-- Digits with a point after the first `whole` of them. -/
def positional (digits : List Char) (whole : Int) : List Char :=
  if whole ≤ 0 then
    ['0', '.'] ++ List.replicate (-whole).toNat '0' ++ digits
  else if (digits.length : Int) ≤ whole then
    digits ++ List.replicate (whole.toNat - digits.length) '0' ++ ['.', '0']
  else
    digits.take whole.toNat ++ ['.'] ++ digits.drop whole.toNat

def scientific (digits : List Char) (leading : Int) : List Char :=
  let mantissa :=
    match digits with
    | [] => []
    | [d] => [d]
    | d :: rest => d :: '.' :: rest
  mantissa ++ ['e', if leading < 0 then '-' else '+'] ++ Nat.toDigits 10 leading.natAbs

def renderDouble (format : NumberFormat) (x : Float) : String :=
  let bits := x.toBits
  let sign := if bits.toNat < Nat.pow 2 63 then [] else ['-']
  let (significand, exponent) := doubleParts bits
  if significand = 0 then String.ofList (sign ++ ['0', '.', '0'])
  else
    let d := Decimal.shortest significand exponent
    let digits := Nat.toDigits 10 d.digits
    let leading := d.exponent + digits.length - 1
    let body :=
      if format.lowest ≤ leading ∧ leading ≤ format.highest then positional digits (leading + 1)
      else scientific digits leading
    String.ofList (sign ++ body)

end ProbeAgent.Text
