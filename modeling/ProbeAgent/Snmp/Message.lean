import ProbeAgent.Ber.Element
import ProbeAgent.Ber.Integer
import ProbeAgent.Ber.ObjectId

/-!
# SNMP messages

A message of version 1 or 2 with one variable binding, which is all that discovery needs.  Decoding
ignores what follows a part that has been read, and reads a community that is not UTF-8 with
replacement characters.
-/

namespace ProbeAgent.Snmp

open ProbeAgent.Ber
open ProbeAgent.Text (Bytes)

inductive Value where
  | null
  | octets (bytes : Bytes)
  -- An element with any other tag.
  | other (tag : UInt8) (content : Bytes)
  deriving DecidableEq

structure Message where
  -- 0 for version 1, 1 for version 2.
  version : Int64
  community : String
  -- The tag of the part that says what the message is for.
  pdu : UInt8
  requestId : Int64
  errorStatus : Int64
  objectId : List UInt32
  value : Value
  deriving DecidableEq

def getRequest : UInt8 := 0xa0

def getResponse : UInt8 := 0xa2

/-- The variable that describes a system. -/
def systemDescription : List UInt32 := [1, 3, 6, 1, 2, 1, 1, 1, 0]

namespace Message

def request (version : Int64) (community : String) (requestId : Int64) (objectId : List UInt32) :
    Message where
  version := version
  community := community
  pdu := getRequest
  requestId := requestId
  errorStatus := 0
  objectId := objectId
  value := .null

/-! ## Encoding -/

def encodeInteger (n : Int64) : Bytes :=
  Element.encode Tag.integer.byte (Integer.encode n.toInt)

def encodeValue : Value → Bytes
  | .null => Element.encode Tag.null.byte []
  | .octets bytes => Element.encode Tag.octetString.byte bytes
  | .other tag content => Element.encode tag content

def encodeBinding (m : Message) : Bytes :=
  Element.encode Tag.sequence.byte
    (Element.encode Tag.objectId.byte (ObjectId.encode m.objectId) ++ encodeValue m.value)

/-- The part with the purpose of the message; its error index is always 0. -/
def encodePdu (m : Message) : Bytes :=
  Element.encode m.pdu
    (encodeInteger m.requestId ++ encodeInteger m.errorStatus ++ encodeInteger 0
      ++ Element.encode Tag.sequence.byte m.encodeBinding)

def encode (m : Message) : Bytes :=
  Element.encode Tag.sequence.byte
    (encodeInteger m.version ++ Element.encode Tag.octetString.byte (Text.encode m.community)
      ++ m.encodePdu)

/-! ## Decoding -/

def readInteger? (bytes : Bytes) : Option (Int64 × Bytes) := do
  let (content, rest) ← Element.readTagged? .integer bytes
  return (← Integer.decode? content, rest)

def valueOf (tag : UInt8) (content : Bytes) : Value :=
  if tag = Tag.null.byte then .null
  else if tag = Tag.octetString.byte then .octets content
  else .other tag content

/-- Reads the first binding of a list of bindings. -/
def readBinding? (bindings : Bytes) : Option (List UInt32 × Value) := do
  let (binding, _) ← Element.readTagged? .sequence bindings
  let (content, rest) ← Element.readTagged? .objectId binding
  let objectId ← ObjectId.decode? content
  let ((tag, content), _) ← Element.read? rest
  return (objectId, valueOf tag content)

def decode? (bytes : Bytes) : Option Message := do
  let (outer, _) ← Element.readTagged? .sequence bytes
  let (version, outer) ← readInteger? outer
  let (community, outer) ← Element.readTagged? .octetString outer
  let ((pdu, body), _) ← Element.read? outer
  let (requestId, body) ← readInteger? body
  let (errorStatus, body) ← readInteger? body
  let (_, body) ← readInteger? body
  let (bindings, _) ← Element.readTagged? .sequence body
  let (objectId, value) ← readBinding? bindings
  return {
    version, pdu, requestId, errorStatus, objectId, value
    community := Text.decodeLossy community }

end Message

end ProbeAgent.Snmp
