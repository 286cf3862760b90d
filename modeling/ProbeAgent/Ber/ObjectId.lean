import ProbeAgent.Text.Utf8

/-!
# Object identifiers in BER

The first byte holds the first two arcs, as `40 * a + b`.  Every other arc is written in base 128,
most significant digit first, with the top bit set on all bytes but the last.
-/

namespace ProbeAgent.Ber.ObjectId

open ProbeAgent.Text (Bytes)

/-- The digits in front of the last one, each with its top bit set. -/
def leadingDigits (n : Nat) : Bytes :=
  if n = 0 then [] else leadingDigits (n / 128) ++ [.ofNat (n % 128 + 128)]
termination_by n
decreasing_by omega

def encodeArc (arc : UInt32) : Bytes :=
  leadingDigits (arc.toNat / 128) ++ [.ofNat (arc.toNat % 128)]

/-- Identifiers with fewer than two arcs have no content. -/
def encode : List UInt32 → Bytes
  | first :: second :: arcs =>
    .ofNat (first.toNat * 40 + second.toNat) :: arcs.flatMap encodeArc
  | _ => []

/-- Reads arcs; `arc` is what the bytes since the last complete arc add up to.  An arc above 32 bits
is refused, digits after the last complete arc are dropped. -/
def decodeArcs? (arc : Nat) : Bytes → Option (List UInt32)
  | [] => some []
  | b :: rest =>
    if Nat.pow 2 32 ≤ arc * 128 then none
    else
      let arc := arc * 128 + b.toNat % 128
      if b.toNat < 128 then (.ofNat arc :: ·) <$> decodeArcs? 0 rest else decodeArcs? arc rest

def decode? : Bytes → Option (List UInt32)
  | [] => none
  | first :: rest =>
    ([.ofNat (first.toNat / 40), .ofNat (first.toNat % 40)] ++ ·) <$> decodeArcs? 0 rest

end ProbeAgent.Ber.ObjectId
