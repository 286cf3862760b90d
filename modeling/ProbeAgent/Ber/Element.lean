import ProbeAgent.Text.Utf8

/-!
# Elements of BER

An element is a tag, the length of its content in one to three bytes, and the content.  `encode`
uses the shortest form of the length; `read?` takes any of the three from the front of some bytes.
-/

namespace ProbeAgent.Ber

open ProbeAgent.Text (Bytes)

inductive Tag where
  | integer
  | octetString
  | null
  | objectId
  | sequence
  deriving DecidableEq

def Tag.byte : Tag → UInt8
  | integer => 0x02
  | octetString => 0x04
  | null => 0x05
  | objectId => 0x06
  | sequence => 0x30

namespace Element

/-- The length of a content in one to three bytes; only its last 16 bits are written. -/
def encodeLength (n : Nat) : Bytes :=
  if n < 0x80 then [.ofNat n]
  else if n ≤ 0xff then [0x81, .ofNat n]
  else [0x82, .ofNat (n / 256), .ofNat n]

def encode (tag : UInt8) (content : Bytes) : Bytes :=
  tag :: encodeLength content.length ++ content

def readLength? : Bytes → Option (Nat × Bytes)
  | [] => none
  | first :: rest =>
    if first.toNat < 0x80 then some (first.toNat, rest)
    else if first = 0x81 then
      match rest with
      | a :: rest => some (a.toNat, rest)
      | [] => none
    else if first = 0x82 then
      match rest with
      | a :: b :: rest => some (a.toNat * 256 + b.toNat, rest)
      | _ => none
    else none

def read? : Bytes → Option ((UInt8 × Bytes) × Bytes)
  | [] => none
  | tag :: rest => do
    let (length, rest) ← readLength? rest
    if rest.length < length then none
    else some ((tag, rest.take length), rest.drop length)

/-- The content of the first element, which must have a given tag, and the rest. -/
def readTagged? (tag : Tag) (bytes : Bytes) : Option (Bytes × Bytes) := do
  let ((found, content), rest) ← read? bytes
  if found = tag.byte then some (content, rest) else none

end Element

end ProbeAgent.Ber
