import ProbeAgent.Text.Decimal

/-!
# Internet addresses

`Ipv4` is a number of 32 bits, `Ipv6` a list of eight groups of 16 bits.  Each has a strict reader
of its usual text, without blanks, leading zeros of octets, ports or zones, and a renderer of the
text that is usual for it.
-/

namespace ProbeAgent

structure Ipv4 where
  bits : UInt32
  deriving DecidableEq, Repr

structure Ipv6 where
  groups : List UInt16
  length_eq : groups.length = 8
  deriving DecidableEq

inductive IpAddress where
  | v4 (address : Ipv4)
  | v6 (address : Ipv6)
  deriving DecidableEq

/-! ## IPv4 -/

namespace Ipv4

def ofOctets (a b c d : Nat) : Ipv4 :=
  ⟨.ofNat (((a * 256 + b) * 256 + c) * 256 + d)⟩

/-- The octet with this index, from 0 at the left. -/
def octet (address : Ipv4) (index : Nat) : Nat :=
  address.bits.toNat / Nat.pow 256 (3 - index) % 256

def render (address : Ipv4) : String :=
  ".".intercalate ((List.range 4).map fun i => toString (address.octet i))

/-- An octet in front of a text: one to three digits, at most 255, without leading zeros. -/
def readOctet (text : List Char) : Option (Nat × List Char) :=
  let (digits, rest) := Text.spanAllDigits text
  let value := Text.digitsValue digits
  if digits.isEmpty ∨ 3 < digits.length ∨ 255 < value then none
  else if 1 < digits.length ∧ digits.head? = some '0' then none
  else some (value, rest)

def readPoint (text : List Char) : Option (List Char) :=
  match text with
  | '.' :: rest => some rest
  | _ => none

def read (text : List Char) : Option (Ipv4 × List Char) := do
  let (a, text) ← readOctet text
  let (b, text) ← readOctet (← readPoint text)
  let (c, text) ← readOctet (← readPoint text)
  let (d, text) ← readOctet (← readPoint text)
  return (ofOctets a b c d, text)

def parse? (text : List Char) : Option Ipv4 := do
  let (address, rest) ← read text
  if rest.isEmpty then some address else none

end Ipv4

/-! ## IPv6 -/

namespace Ipv6

def hexDigit? (c : Char) : Option Nat :=
  if c.isDigit then some (c.toNat - '0'.toNat)
  else if 'a' ≤ c ∧ c ≤ 'f' then some (c.toNat - 'a'.toNat + 10)
  else if 'A' ≤ c ∧ c ≤ 'F' then some (c.toNat - 'A'.toNat + 10)
  else none

def readGroup (text : List Char) : Option (UInt16 × List Char) :=
  let digits := text.takeWhile fun c => (hexDigit? c).isSome
  if digits.isEmpty ∨ 4 < digits.length then none
  else
    let value := digits.foldl (fun n c => 16 * n + (hexDigit? c).getD 0) 0
    some (.ofNat value, text.drop digits.length)

/-- The colon that separates a part from those before it. -/
def readColon (first : Bool) (text : List Char) : Option (List Char) :=
  if first then some text
  else
    match text with
    | ':' :: rest => some rest
    | _ => none

/-- Up to `limit` groups between colons; the last two may be an IPv4 address.  The result also has
whether they were, and the rest. -/
def readGroups : (limit : Nat) → (first : Bool) → List Char → List UInt16 × Bool × List Char
  | 0, _, text => ([], false, text)
  | limit + 1, first, text =>
    let embedded := if limit = 0 then none else (readColon first text).bind Ipv4.read
    match embedded with
    | some (address, rest) =>
      ([.ofNat (address.bits.toNat / 65536), .ofNat (address.bits.toNat % 65536)], true, rest)
    | none =>
      match (readColon first text).bind readGroup with
      | none => ([], false, text)
      | some (group, rest) =>
        let (groups, embedded, rest) := readGroups limit false rest
        (group :: groups, embedded, rest)

def ofGroups? (groups : List UInt16) : Option Ipv6 :=
  if h : groups.length = 8 then some ⟨groups, h⟩ else none

/-- An address in front of a text; a double colon stands for one or more groups of zeros. -/
def read (text : List Char) : Option (Ipv6 × List Char) := do
  let (head, embedded, rest) := readGroups 8 true text
  if head.length = 8 then return (← ofGroups? head, rest)
  if embedded then none
  match rest with
  | ':' :: ':' :: rest =>
    let (tail, _, rest) := readGroups (7 - head.length) true rest
    let zeros := List.replicate (8 - head.length - tail.length) 0
    return (← ofGroups? (head ++ zeros ++ tail), rest)
  | _ => none

def parse? (text : List Char) : Option Ipv6 := do
  let (address, rest) ← read text
  if rest.isEmpty then some address else none

def renderGroups (groups : List UInt16) : String :=
  ":".intercalate (groups.map fun g => String.ofList (Nat.toDigits 16 g.toNat))

def longestZeros (groups : List UInt16) : Nat × Nat :=
  let runs := (List.range 8).map fun i => (i, ((groups.drop i).takeWhile (· = 0)).length)
  runs.foldl (fun best run => if best.2 < run.2 then run else best) (0, 0)

/-- Lower-case groups without leading zeros; a double colon for the first longest run of two or more
zero groups; the last two groups of a mapped IPv4 address in its own form. -/
def render (address : Ipv6) : String :=
  match address.groups with
  | [0, 0, 0, 0, 0, 0xffff, high, low] =>
    "::ffff:" ++ Ipv4.render ⟨.ofNat (high.toNat * 65536 + low.toNat)⟩
  | groups =>
    let (start, length) := longestZeros groups
    if length < 2 then renderGroups groups
    else renderGroups (groups.take start) ++ "::" ++ renderGroups (groups.drop (start + length))

end Ipv6

namespace IpAddress

def parse? (text : String) : Option IpAddress :=
  let characters := text.toList
  match Ipv4.parse? characters with
  | some address => some (.v4 address)
  | none => (Ipv6.parse? characters).map .v6

def render : IpAddress → String
  | v4 address => address.render
  | v6 address => address.render

end IpAddress

end ProbeAgent
