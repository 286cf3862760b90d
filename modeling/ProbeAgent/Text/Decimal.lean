/-!
# Decimal digits of fixed width

`paddedNat` writes a number with at least so many digits, `takeDigits` reads up to so many.
-/

namespace ProbeAgent.Text

/-- The digits of `n`, with zeros in front up to `width`. -/
def paddedNat (width n : Nat) : String :=
  let digits := Nat.toDigits 10 n
  String.ofList (List.replicate (width - digits.length) '0' ++ digits)

/-- A sign, then the digits of the amount; sign and digits fill at least `width`. -/
def paddedSigned (width : Nat) (n : Int) : String :=
  (if n < 0 then "-" else "+") ++ paddedNat (width - 1) n.natAbs

def spacedNat (width n : Nat) : String :=
  let digits := Nat.toDigits 10 n
  String.ofList (List.replicate (width - digits.length) ' ' ++ digits)

def digitValue (c : Char) : Nat := c.toNat - '0'.toNat

def digitsValue (digits : List Char) : Nat :=
  digits.foldl (fun n c => 10 * n + digitValue c) 0

/-- The longest run of at most `limit` digits in front, and what follows it. -/
def spanDigits (limit : Nat) (text : List Char) : List Char × List Char :=
  let digits := (text.take limit).takeWhile Char.isDigit
  (digits, text.drop digits.length)

def spanAllDigits (text : List Char) : List Char × List Char :=
  (text.takeWhile Char.isDigit, text.dropWhile Char.isDigit)

end ProbeAgent.Text
