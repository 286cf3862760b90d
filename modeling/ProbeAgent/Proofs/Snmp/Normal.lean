import ProbeAgent.Proofs.Snmp.Message

/-!
# Messages that were read

Many bytes are read as the same message: lengths, integers and arcs may be padded, arcs cut off, and
bytes left over in every part.  Only a community that is not UTF-8 grows when the message is written,
by three bytes for one at most, so a message that was read from few enough bytes can be written, and
it is read back from what is written (`decode?_encode_of_decode?`).
-/

namespace ProbeAgent.Snmp.Message

open ProbeAgent.Ber
open ProbeAgent.Text (Bytes)

variable {bytes rest : Bytes} {m : Message} {n : Int64} {objectId : List UInt32} {value : Value}

/-! ## Integers -/

theorem readInteger?_eq_some (h : readInteger? bytes = some (n, rest)) :
    ∃ content, Element.read? bytes = some ((Tag.integer.byte, content), rest) ∧
      Integer.decode? content = some n := by
  unfold readInteger? at h
  rw [Option.bind_eq_bind, Option.bind_eq_some_iff] at h
  obtain ⟨⟨content, _⟩, hread, h⟩ := h
  rw [Option.bind_eq_bind, Option.bind_eq_some_iff] at h
  obtain ⟨_, hdecode, heq⟩ := h
  cases heq
  exact ⟨content, Element.readTagged?_eq_some_iff.1 hread, hdecode⟩

theorem length_encodeInteger_add_le (h : readInteger? bytes = some (n, rest)) :
    (encodeInteger n).length + 3 * rest.length ≤ 3 * bytes.length := by
  obtain ⟨content, hread, hdecode⟩ := readInteger?_eq_some h
  have hlength := Integer.length_encode_le_of_decode? hdecode
  exact Element.length_encode_add_le hread (by omega) Tag.integer.byte

-- The error index is written as 0, whatever it was.
theorem length_encodeInteger_zero_add_le (h : readInteger? bytes = some (n, rest)) :
    (encodeInteger 0).length + 3 * rest.length ≤ 3 * bytes.length := by
  obtain ⟨content, hread, -⟩ := readInteger?_eq_some h
  have hzero : (encodeInteger 0).length = 3 := by
    rw [encodeInteger, Int64.toInt_zero, Integer.encode_of_byte (by decide)]
    rfl
  have hlength := Element.length_of_read? hread
  omega

/-! ## Bindings -/

theorem readBinding?_eq_some (h : readBinding? bytes = some (objectId, value)) :
    ∃ binding content rest tag stored afterBinding afterValue,
      Element.read? bytes = some ((Tag.sequence.byte, binding), afterBinding) ∧
      Element.read? binding = some ((Tag.objectId.byte, content), rest) ∧
      ObjectId.decode? content = some objectId ∧
      Element.read? rest = some ((tag, stored), afterValue) ∧
      value = valueOf tag stored := by
  unfold readBinding? at h
  simp only [Option.bind_eq_bind, Option.bind_eq_some_iff, Prod.exists] at h
  obtain ⟨binding, afterBinding, hbinding, content, rest, hcontent, _, hdecode, tag, stored,
    afterValue, hvalue, heq⟩ := h
  cases heq
  exact ⟨binding, content, rest, tag, stored, afterBinding, afterValue,
    Element.readTagged?_eq_some_iff.1 hbinding, Element.readTagged?_eq_some_iff.1 hcontent, hdecode,
    hvalue, rfl⟩

theorem ne_of_valueOf_eq_other {tag found : UInt8} {content stored : Bytes}
    (h : valueOf tag content = .other found stored) :
    found ≠ Tag.octetString.byte ∧ found ≠ Tag.null.byte := by
  unfold valueOf at h
  split at h
  · contradiction
  split at h
  · contradiction
  · rename_i hnull hoctets
    cases h
    exact ⟨hoctets, hnull⟩

-- A null is written without the content that it may have been read with.
theorem length_valueElement_le (tag : UInt8) (content : Bytes) :
    (valueElement (valueOf tag content)).2.length ≤ content.length := by
  unfold valueOf
  split
  · exact Nat.zero_le _
  split
  · exact Nat.le_refl _
  · exact Nat.le_refl _

theorem length_encodeBinding_le (h : readBinding? bytes = some (m.objectId, m.value)) :
    m.encodeBinding.length ≤ 3 * bytes.length := by
  obtain ⟨binding, content, rest, tag, stored, _, _, hbinding, hcontent, hdecode, hstored, hvalue⟩ :=
    readBinding?_eq_some h
  have hobjectId : (Element.encode Tag.objectId.byte (ObjectId.encode m.objectId)).length +
      3 * rest.length ≤ 3 * binding.length := by
    obtain ⟨_, _, _, -, -, hlength⟩ := ObjectId.exists_of_decode? hdecode
    exact Element.length_encode_add_le hcontent (by omega) _
  have hlast : (encodeValue m.value).length ≤ 3 * rest.length := by
    have hlength := length_valueElement_le tag stored
    rw [hvalue, encodeValue_eq]
    have helement := Element.length_encode_add_le hstored
      (show (valueElement (valueOf tag stored)).2.length ≤ _ by omega)
      (valueElement (valueOf tag stored)).1
    omega
  have hcontents : m.bindingContent.length ≤ 3 * binding.length := by
    rw [bindingContent, List.length_append]
    omega
  have hwhole := Element.length_encode_add_le hbinding hcontents Tag.sequence.byte
  rw [encodeBinding_eq]
  omega

/-! ## Messages -/

/-- The parts of some bytes, each with what it is read as in a message. -/
inductive ReadFrom (bytes : Bytes) (m : Message) : Prop where
  | parts {outer afterOuter afterVersion community afterCommunity body afterBody afterId afterStatus
      afterIndex bindings afterBindings : Bytes} {index : Int64}
      (houter : Element.read? bytes = some ((Tag.sequence.byte, outer), afterOuter))
      (hversion : readInteger? outer = some (m.version, afterVersion))
      (hcommunity : Element.read? afterVersion =
        some ((Tag.octetString.byte, community), afterCommunity))
      (htext : m.community = Text.decodeLossy community)
      (hpdu : Element.read? afterCommunity = some ((m.pdu, body), afterBody))
      (hid : readInteger? body = some (m.requestId, afterId))
      (hstatus : readInteger? afterId = some (m.errorStatus, afterStatus))
      (hindex : readInteger? afterStatus = some (index, afterIndex))
      (hbindings : Element.read? afterIndex = some ((Tag.sequence.byte, bindings), afterBindings))
      (hbinding : readBinding? bindings = some (m.objectId, m.value))

theorem readFrom_of_decode? (h : decode? bytes = some m) : ReadFrom bytes m := by
  unfold decode? at h
  simp only [Option.bind_eq_bind, Option.bind_eq_some_iff, Prod.exists] at h
  obtain ⟨_, _, houter, _, _, hversion, _, _, hcommunity, _, _, _, hpdu, _, _, hid, _, _, hstatus, _, _,
    hindex, _, _, hbindings, _, _, hbinding, heq⟩ := h
  cases heq
  exact .parts (Element.readTagged?_eq_some_iff.1 houter) hversion
    (Element.readTagged?_eq_some_iff.1 hcommunity) rfl hpdu hid hstatus hindex
    (Element.readTagged?_eq_some_iff.1 hbindings) hbinding

/-- A message is written in at most three times as many bytes as it was read from. -/
theorem ReadFrom.length_encode_le (h : ReadFrom bytes m) : m.encode.length ≤ 3 * bytes.length := by
  obtain ⟨houter, hversion, hcommunity, htext, hpdu, hid, hstatus, hindex, hbindings, hbinding⟩ := h
  have hversion := length_encodeInteger_add_le hversion
  have hcommunity := Element.length_encode_add_le hcommunity
    (Text.length_encode_decodeLossy_le _) Tag.octetString.byte
  have hid := length_encodeInteger_add_le hid
  have hstatus := length_encodeInteger_add_le hstatus
  have hindex := length_encodeInteger_zero_add_le hindex
  have hbindings := Element.length_encode_add_le hbindings (length_encodeBinding_le hbinding)
    Tag.sequence.byte
  have hpdu := Element.length_encode_add_le hpdu
    (show m.pduContent.length ≤ _ by
      rw [pduContent, List.length_append, List.length_append, List.length_append]
      omega) m.pdu
  have hwhole := Element.length_encode_add_le houter
    (show m.content.length ≤ _ by
      rw [content, List.length_append, List.length_append, htext, encodePdu_eq]
      omega) Tag.sequence.byte
  rw [encode_eq]
  omega

/-- Three times as many bytes must not be more than the longest content. -/
theorem ReadFrom.writable (h : ReadFrom bytes m) (hlength : 3 * bytes.length ≤ Element.maxLength) :
    m.Writable := by
  have hencode := h.length_encode_le
  obtain ⟨-, -, -, -, -, -, -, -, -, hbinding⟩ := h
  obtain ⟨_, _, _, _, _, _, _, -, -, hdecode, -, hvalue⟩ := readBinding?_eq_some hbinding
  obtain ⟨first, second, arcs, hobjectId, hfits, -⟩ := ObjectId.exists_of_decode? hdecode
  refine ⟨⟨first, second, arcs, hobjectId, hfits⟩, fun _ _ hother => ?_, ?_⟩
  · rw [hvalue] at hother
    exact ne_of_valueOf_eq_other hother
  · rw [encode_eq, Element.encode_eq, List.length_cons, List.length_append] at hencode
    omega

/-- What was read from the bytes of one packet, which are 1280 at most, is read again from the bytes
that are written for it. -/
theorem decode?_encode_of_decode? (hlength : bytes.length ≤ 1280) (h : decode? bytes = some m) :
    decode? m.encode = some m := by
  have hfits : 3 * bytes.length ≤ Element.maxLength := by
    unfold Element.maxLength
    omega
  have hread := decode?_encode ((readFrom_of_decode? h).writable hfits) []
  rwa [List.append_nil] at hread

/-- The form of every length is too long, the integers are padded, the community is not UTF-8, an arc
is padded and another cut off, and bytes are left over in every part. -/
def paddedResponse : Bytes := [
  0x30, 0x82, 0, 0x33, 0x02, 0x81, 3, 0, 0, 1, 0x04, 0x82, 0, 2, 0xff, 0x70,
  0xa2, 0x81, 0x23, 0x02, 2, 0xff, 0x80, 0x02, 2, 0, 0, 0x02, 1, 9,
  0x30, 0x82, 0, 0x13, 0x30, 0x81, 0xf, 0x06, 0x81, 6, 0x2b, 0x80, 0x06, 0x83, 0x01, 0x84,
  0x04, 0x81, 1, 0x41, 0x05, 0, 0, 0xff, 0, 0xff]

def paddedResponseRead : Message where
  version := 1
  community := "\ufffdp"
  pdu := getResponse
  requestId := -128
  errorStatus := 0
  objectId := [1, 3, 6, 385]
  value := .octets [0x41]

theorem paddedResponse_read_again :
    decode? paddedResponse = some paddedResponseRead ∧
      paddedResponseRead.encode.length < paddedResponse.length ∧
      decode? paddedResponseRead.encode = some paddedResponseRead := by
  have hread : decode? paddedResponse = some paddedResponseRead := by decide +kernel
  exact ⟨hread, by decide +kernel, decode?_encode_of_decode? (by decide) hread⟩

end ProbeAgent.Snmp.Message
