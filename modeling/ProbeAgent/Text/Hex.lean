import ProbeAgent.Text.Utf8

/-!
# Bytes as hexadecimal digits

Two lower-case digits for each byte.  Reading takes digits of either case and stops at an odd one.
-/

namespace ProbeAgent.Text

def hexValue (c : Char) : Nat :=
  if '0' ≤ c ∧ c ≤ '9' then c.toNat - '0'.toNat
  else if 'a' ≤ c ∧ c ≤ 'f' then c.toNat - 'a'.toNat + 10
  else if 'A' ≤ c ∧ c ≤ 'F' then c.toNat - 'A'.toNat + 10
  else 0

def bytesOfDigits : List Char → Bytes
  | high :: low :: rest => .ofNat (hexValue high * 16 + hexValue low) :: bytesOfDigits rest
  | _ => []

def bytesOfHex (text : String) : Bytes := bytesOfDigits text.toList

def hexOfBytes (bytes : Bytes) : String :=
  String.ofList (bytes.flatMap fun b =>
    [Nat.digitChar (b.toNat / 16), Nat.digitChar (b.toNat % 16)])

end ProbeAgent.Text
