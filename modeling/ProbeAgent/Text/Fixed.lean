import ProbeAgent.Text.Decimal
import ProbeAgent.Text.Shortest

/-!
# Numbers with a fixed number of decimal places

`fixedDouble` writes the exact value of a double rounded to so many places; of two neighbours at the
same distance it takes the even one.
-/

namespace ProbeAgent.Text

/-- The whole number nearest to a fraction, an even one if two are. -/
def roundHalfEven (numerator denominator : Nat) : Nat :=
  let below := numerator / denominator
  let rest := 2 * (numerator % denominator)
  if rest < denominator ∨ (rest = denominator ∧ below % 2 = 0) then below else below + 1

theorem roundHalfEven_near (numerator denominator : Nat) (h : 0 < denominator) :
    2 * (denominator * roundHalfEven numerator denominator) ≤ 2 * numerator + denominator ∧
      2 * numerator ≤ 2 * (denominator * roundHalfEven numerator denominator) + denominator := by
  have hsplit := Nat.div_add_mod numerator denominator
  have hrest := Nat.mod_lt numerator h
  simp only [roundHalfEven]
  split
  · omega
  · rw [Nat.mul_succ]
    omega

/-- The whole and the fractional digits of a number of units of the last place. -/
def placed (places n : Nat) : String :=
  toString (n / Nat.pow 10 places) ++ "." ++ paddedNat places (n % Nat.pow 10 places)

def fixedDouble (places : Nat) (x : Float) : String :=
  let bits := x.toBits
  let sign := if bits.toNat < Nat.pow 2 63 then "" else "-"
  if x.isNaN then "NaN"
  else if x.isInf then sign ++ "inf"
  else
    let (significand, exponent) := doubleParts bits
    let numerator := significand * Nat.pow 2 exponent.toNat * Nat.pow 10 places
    sign ++ placed places (roundHalfEven numerator (Nat.pow 2 (-exponent).toNat))

end ProbeAgent.Text
