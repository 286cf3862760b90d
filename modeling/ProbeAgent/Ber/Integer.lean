import ProbeAgent.Text.Utf8

/-!
# Integers in BER

The content of an integer is its two's complement, most significant byte first.  `encode` writes the
shortest content; `decode?` reads any content of one to eight bytes.
-/

namespace ProbeAgent.Ber.Integer

open ProbeAgent.Text (Bytes)

/-- The byte with the residue of a number modulo 256. -/
def byteOf (n : Int) : UInt8 := .ofNat (n % 256).toNat

def encode (n : Int) : Bytes :=
  if -128 ≤ n ∧ n < 128 then [byteOf n] else encode (n / 256) ++ [byteOf n]
termination_by n.natAbs
decreasing_by omega

def push (n : Int) (b : UInt8) : Int := n * 256 + b.toNat

/-- The sign is the first bit. -/
def signOf (first : UInt8) : Int := if 128 ≤ first.toNat then -1 else 0

def value : Bytes → Int
  | [] => 0
  | first :: rest => (first :: rest).foldl push (signOf first)

def decode? (content : Bytes) : Option Int64 :=
  if content.isEmpty ∨ 8 < content.length then none else some (.ofInt (value content))

end ProbeAgent.Ber.Integer
