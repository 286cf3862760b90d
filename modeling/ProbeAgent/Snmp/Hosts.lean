import ProbeAgent.Net.Address
import ProbeAgent.Text.Blank
import ProbeAgent.Text.Quoted

/-!
# Lists of addresses to scan

One address, a range `first-last`, or a block `address/length`.  A block stands for the addresses
that hosts can have: its first and last address are left out unless it has fewer than three.  No
list has more than 65536 addresses.
-/

namespace ProbeAgent.Snmp

def maxHosts : Nat := 65536

inductive HostsError where
  | empty
  | invalidAddress (text : String)
  | invalidBlock (text : String)
  | blockTooLarge (text : String)
  | rangeReversed (text : String)
  | rangeTooLarge (text : String)
  deriving DecidableEq

namespace HostsError

def message : HostsError → String
  | empty => "host_addresses must not be empty"
  | invalidAddress text =>
    "invalid IPv4 address " ++ Text.quoted text ++ ": invalid IPv4 address syntax"
  | invalidBlock text => "invalid CIDR block " ++ Text.quoted text ++ ": invalid IP address syntax"
  | blockTooLarge text =>
    "CIDR block " ++ Text.quoted text ++ " exceeds " ++ toString maxHosts ++ " addresses"
  | rangeReversed text => "range " ++ Text.quoted text ++ " ends before it starts"
  | rangeTooLarge text =>
    "range " ++ Text.quoted text ++ " exceeds " ++ toString maxHosts ++ " addresses"

end HostsError

/-- The addresses from one number to another, both included. -/
def addressesBetween (first last : Nat) : List Ipv4 :=
  (List.range' first (last + 1 - first)).map fun n => ⟨.ofNat n⟩

/-! ## Blocks -/

structure Block where
  address : Ipv4
  -- How many bits all addresses of the block share.
  length : Nat
  length_le : length ≤ 32

namespace Block

def size (block : Block) : Nat := Nat.pow 2 (32 - block.length)

def first (block : Block) : Nat :=
  block.address.bits.toNat / block.size * block.size

def last (block : Block) : Nat := block.first + block.size - 1

def hosts (block : Block) : List Ipv4 :=
  if block.length < 31 then addressesBetween (block.first + 1) (block.last - 1)
  else addressesBetween block.first block.last

/-- One to three digits; unlike in an address by itself, an octet may have leading zeros here. -/
def readOctet (text : List Char) : Option (Nat × List Char) :=
  let (digits, rest) := Text.spanAllDigits text
  if digits.isEmpty ∨ 3 < digits.length ∨ 255 < Text.digitsValue digits then none
  else some (Text.digitsValue digits, rest)

def readAddress (text : List Char) : Option (Ipv4 × List Char) := do
  let (a, text) ← readOctet text
  let (b, text) ← readOctet (← Ipv4.readPoint text)
  let (c, text) ← readOctet (← Ipv4.readPoint text)
  let (d, text) ← readOctet (← Ipv4.readPoint text)
  return (.ofOctets a b c d, text)

/-- The length of a block: one or two digits, at most 32. -/
def readLength (text : List Char) : Option Nat :=
  let (digits, rest) := Text.spanAllDigits text
  if digits.isEmpty ∨ 2 < digits.length ∨ 32 < Text.digitsValue digits ∨ !rest.isEmpty then none
  else some (Text.digitsValue digits)

def parse? (text : List Char) : Option Block := do
  let (address, text) ← readAddress text
  match text with
  | '/' :: rest =>
    let length ← readLength rest
    if h : length ≤ 32 then some ⟨address, length, h⟩ else none
  | _ => none

end Block

/-! ## Lists -/

/-- The text in front of the first such character, and the text behind it. -/
def splitAt? (separator : Char) (text : List Char) : Option (List Char × List Char) :=
  if text.contains separator then
    some (text.takeWhile (· ≠ separator), (text.dropWhile (· ≠ separator)).drop 1)
  else none

def parseAddress (text : List Char) : Except HostsError Ipv4 :=
  let text := Text.trim text
  match Ipv4.parse? text with
  | some address => return address
  | none => throw (.invalidAddress (String.ofList text))

def parseHosts (text : String) : Except HostsError (List Ipv4) := do
  let characters := Text.trim text.toList
  let whole := String.ofList characters
  if characters.isEmpty then throw .empty
  if characters.contains '/' then
    match Block.parse? characters with
    | none => throw (.invalidBlock whole)
    | some block => if block.length < 16 then throw (.blockTooLarge whole) else return block.hosts
  else
    match splitAt? '-' characters with
    | some (first, last) =>
      let first ← parseAddress first
      let last ← parseAddress last
      let (first, last) := (first.bits.toNat, last.bits.toNat)
      if last < first then throw (.rangeReversed whole)
      else if maxHosts ≤ last - first then throw (.rangeTooLarge whole)
      else return addressesBetween first last
    | none => return [← parseAddress characters]

end ProbeAgent.Snmp
