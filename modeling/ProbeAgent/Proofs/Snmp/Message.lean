import ProbeAgent.Snmp.Message
import ProbeAgent.Proofs.Ber.Element
import ProbeAgent.Proofs.Ber.Integer
import ProbeAgent.Proofs.Ber.ObjectId

/-!
# Reading messages

A message that can be written (`Message.Writable`) is read back from the front of any bytes, and
cannot be read before its last byte has come.  Its parts are elements in elements, and the outermost
one bounds the lengths of all others.
-/

namespace ProbeAgent.Snmp.Message

open ProbeAgent.Ber
open ProbeAgent.Text (Bytes)

/-! ## The contents of a message -/

/-- What the element of a message holds. -/
def content (m : Message) : Bytes :=
  encodeInteger m.version ++ (Element.encode Tag.octetString.byte (Text.encode m.community)
    ++ m.encodePdu)

def pduContent (m : Message) : Bytes :=
  encodeInteger m.requestId ++ (encodeInteger m.errorStatus ++ (encodeInteger 0
    ++ Element.encode Tag.sequence.byte m.encodeBinding))

def bindingContent (m : Message) : Bytes :=
  Element.encode Tag.objectId.byte (ObjectId.encode m.objectId) ++ encodeValue m.value

def valueElement : Value → UInt8 × Bytes
  | .null => (Tag.null.byte, [])
  | .octets bytes => (Tag.octetString.byte, bytes)
  | .other tag content => (tag, content)

theorem encode_eq (m : Message) : m.encode = Element.encode Tag.sequence.byte m.content := by
  unfold encode content
  rw [List.append_assoc]

theorem encodePdu_eq (m : Message) : m.encodePdu = Element.encode m.pdu m.pduContent := by
  unfold encodePdu pduContent
  rw [List.append_assoc, List.append_assoc]

theorem encodeBinding_eq (m : Message) :
    m.encodeBinding = Element.encode Tag.sequence.byte m.bindingContent :=
  rfl

theorem encodeValue_eq (value : Value) :
    encodeValue value = Element.encode (valueElement value).1 (valueElement value).2 := by
  cases value <;> rfl

/-- The first two arcs fit into a byte, an element of another kind has neither of the tags that stand
for kinds of their own, and the length of the content can be written. -/
structure Writable (m : Message) : Prop where
  objectId : ∃ first second arcs, m.objectId = first :: second :: arcs ∧
    ObjectId.FitsFirstByte first second
  value : ∀ tag bytes, m.value = .other tag bytes →
    tag ≠ Tag.octetString.byte ∧ tag ≠ Tag.null.byte
  length_le : m.content.length ≤ Element.maxLength

namespace Writable

variable {m : Message}

/-! ## The lengths of the parts -/

theorem community_le (h : m.Writable) : (Text.encode m.community).length ≤ Element.maxLength :=
  Element.length_le_of_infix h.length_le (List.infix_append' _ _ _)

theorem pduContent_le (h : m.Writable) : m.pduContent.length ≤ Element.maxLength := by
  have hpart : Element.encode m.pdu m.pduContent <:+: m.content := by
    rw [← encodePdu_eq]
    exact ((List.suffix_append _ _).trans (List.suffix_append _ _)).isInfix
  exact Element.length_le_of_infix h.length_le hpart

theorem encodeBinding_le (h : m.Writable) : m.encodeBinding.length ≤ Element.maxLength := by
  apply Element.length_le_of_infix h.pduContent_le
  apply List.IsSuffix.isInfix
  exact ((List.suffix_append _ _).trans (List.suffix_append _ _)).trans (List.suffix_append _ _)

theorem bindingContent_le (h : m.Writable) : m.bindingContent.length ≤ Element.maxLength :=
  Element.length_le_of_infix h.encodeBinding_le (List.infix_refl _)

theorem objectId_le (h : m.Writable) : (ObjectId.encode m.objectId).length ≤ Element.maxLength :=
  Element.length_le_of_infix h.bindingContent_le (List.prefix_append _ _).isInfix

theorem value_le (h : m.Writable) : (valueElement m.value).2.length ≤ Element.maxLength := by
  have hpart : Element.encode (valueElement m.value).1 (valueElement m.value).2 <:+:
      m.bindingContent := by
    rw [← encodeValue_eq]
    exact (List.suffix_append _ _).isInfix
  exact Element.length_le_of_infix h.bindingContent_le hpart

end Writable

/-! ## Reading the parts -/

theorem readInteger?_encodeInteger (n : Int64) (rest : Bytes) :
    readInteger? (encodeInteger n ++ rest) = some (n, rest) := by
  have hlength := Integer.length_encode_toInt_le n
  have hle : (Integer.encode n.toInt).length ≤ Element.maxLength := by
    unfold Element.maxLength
    omega
  unfold readInteger? encodeInteger
  rw [Element.readTagged?_encode hle]
  show (Integer.decode? (Integer.encode n.toInt)).bind _ = _
  rw [Integer.decode?_encode]
  rfl

-- An element with the tag of another kind would be read as that kind.
theorem valueOf_valueElement {value : Value}
    (h : ∀ tag bytes, value = .other tag bytes →
      tag ≠ Tag.octetString.byte ∧ tag ≠ Tag.null.byte) :
    valueOf (valueElement value).1 (valueElement value).2 = value := by
  unfold valueOf
  cases value with
  | null => rfl
  | octets bytes => rfl
  | other tag bytes =>
    obtain ⟨hoctets, hnull⟩ := h tag bytes rfl
    show (if tag = Tag.null.byte then _ else if tag = Tag.octetString.byte then _ else _) = _
    rw [if_neg hnull, if_neg hoctets]
    rfl

variable {m : Message}

theorem readBinding?_encodeBinding (h : m.Writable) :
    readBinding? m.encodeBinding = some (m.objectId, m.value) := by
  obtain ⟨first, second, arcs, hobject, hfirst⟩ := h.objectId
  have hdecode : ObjectId.decode? (ObjectId.encode m.objectId) = some m.objectId := by
    rw [hobject, ObjectId.decode?_encode hfirst]
  unfold readBinding?
  rw [encodeBinding_eq, Element.readTagged?_encode_self h.bindingContent_le]
  show (Element.readTagged? .objectId m.bindingContent).bind _ = _
  unfold bindingContent
  rw [Element.readTagged?_encode h.objectId_le]
  show (ObjectId.decode? (ObjectId.encode m.objectId)).bind _ = _
  rw [hdecode]
  show (Element.read? (encodeValue m.value)).bind _ = _
  rw [encodeValue_eq, Element.read?_encode_self h.value_le]
  show some (m.objectId, valueOf _ _) = _
  rw [valueOf_valueElement h.value]

/-! ## Reading a message -/

theorem decode?_eq_none_of_read? {bytes : Bytes} (h : Element.read? bytes = none) :
    decode? bytes = none := by
  unfold decode? Element.readTagged?
  rw [h]
  rfl

theorem decode?_encode (h : m.Writable) (rest : Bytes) : decode? (m.encode ++ rest) = some m := by
  unfold decode?
  rw [encode_eq, Element.readTagged?_encode h.length_le]
  simp only [Option.bind_eq_bind, Option.bind_some, content, readInteger?_encodeInteger,
    Element.readTagged?_encode h.community_le, encodePdu_eq,
    Element.read?_encode_self h.pduContent_le]
  simp only [Option.bind_some, pduContent, readInteger?_encodeInteger,
    Element.readTagged?_encode_self h.encodeBinding_le, readBinding?_encodeBinding h,
    Text.decodeLossy_encode]
  rfl

/-- A message is read back, whatever follows it, and nothing is read before its end. -/
theorem decode?_encode_append (h : m.Writable) :
    (∀ rest, decode? (m.encode ++ rest) = some m) ∧
      ∀ part, part <+: m.encode → part ≠ m.encode → decode? part = none := by
  refine ⟨decode?_encode h, fun part hpart hne => decode?_eq_none_of_read? ?_⟩
  rw [encode_eq] at hpart hne
  exact Element.read?_eq_none_of_prefix h.length_le hpart hne

/-- The lengths of its parts take all three forms, and its numbers take up to eight bytes. -/
def longResponse : Message where
  version := 1
  community := "überwachung"
  pdu := getResponse
  requestId := -129
  errorStatus := Int64.minValue
  objectId := [2, 39, 0, 127, 128, 4294967295]
  value := .octets (List.replicate 130 0x41 ++ List.replicate 130 0xff)

theorem longResponse_read :
    decode? (longResponse.encode ++ longResponse.encode) = some longResponse ∧
      decode? longResponse.encode.dropLast = none := by
  have hwritable : longResponse.Writable := {
    objectId := ⟨2, 39, [0, 127, 128, 4294967295], rfl, by decide, by decide⟩
    value := fun _ _ h => by cases h
    length_le := by decide +kernel }
  obtain ⟨hread, hpart⟩ := decode?_encode_append hwritable
  refine ⟨hread _, hpart _ (List.dropLast_prefix _) fun heq => ?_⟩
  have hlength := congrArg List.length heq
  rw [List.length_dropLast, encode_eq, Element.encode_eq, List.length_cons] at hlength
  omega

end ProbeAgent.Snmp.Message
