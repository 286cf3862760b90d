import ProbeAgent.Measurement.Registry
import ProbeAgent.Proofs.Json.Decode

/-!
# Definitions are the normal form of their options

Options can say the same thing in many ways: as an object or as a list, with another name for the
host, with keys that mean nothing, or by leaving out what has a default.  The definition that they
give is written with every key, and what is written gives that definition again.
-/

namespace ProbeAgent

open Doc

namespace PingDefinition

theorem separate_rules : Separate rules := by decide

theorem ofDoc_kept (d : PingDefinition) : ofDoc (kept d.toJson) = .ok d := by
  have hpayload : Doc.list Doc.uint8 (kept (.arr (d.payload.map fun b => .int b.toNat))) =
      .ok d.payload :=
    list_kept fun b _ => uint8_kept b
  obtain ⟨values, hrecord, hlookup⟩ := record_kept rules d.toJson rfl separate_rules
    (.field (discard_ok (text_kept d.host)) <| .field (discard_ok (uint32_kept d.count)) <|
      .field (discard_ok (uint64_kept d.interval)) <|
      .field (discard_ok (uint64_kept d.receiveTimeout)) <| .field (discard_ok (uint8_kept d.ttl)) <|
      .field (discard_ok (uint16_kept d.destinationPort)) <|
      .field (discard_ok (uint16_kept d.sourcePort)) <| .field (discard_ok hpayload) .nil) .value
    "UdpPingDefinition"
  rw [ofDoc, hrecord, ok_bind]
  simp [FieldValues.require, FieldValues.get, hlookup, toJson, Json.get?, List.lookup_cons, hpayload]

end PingDefinition

namespace TracerouteDefinition

theorem separate_rules : Separate rules := by decide

theorem pingType_ofDoc_kept (t : PingType) : PingType.ofDoc (kept t.toJson) = .ok t := by
  cases t <;> rfl

theorem ofDoc_kept (d : TracerouteDefinition) : ofDoc (kept d.toJson) = .ok d := by
  have hpayload : Doc.list Doc.uint8 (kept (.arr (d.payload.map fun b => .int b.toNat))) =
      .ok d.payload :=
    list_kept fun b _ => uint8_kept b
  have htype := pingType_ofDoc_kept d.pingType
  obtain ⟨values, hrecord, hlookup⟩ := record_kept rules d.toJson rfl separate_rules
    (.field (discard_ok (text_kept d.host)) <| .field (discard_ok (uint32_kept d.count)) <|
      .field (discard_ok (uint64_kept d.interval)) <|
      .field (discard_ok (uint64_kept d.receiveTimeout)) <|
      .field (discard_ok (uint16_kept d.destinationPort)) <|
      .field (discard_ok (uint16_kept d.sourcePort)) <| .field (discard_ok hpayload) <|
      .field (discard_ok htype) .nil) .value "TracerouteDefinition"
  rw [ofDoc, hrecord, ok_bind]
  simp [FieldValues.require, FieldValues.get, hlookup, toJson, Json.get?, List.lookup_cons, hpayload,
    htype]

end TracerouteDefinition

namespace SnmpDefinition

theorem ofDoc_kept (d : SnmpDefinition) : ofDoc (kept d.toJson) = .ok d := by
  have hcommunities : Doc.list Doc.text (kept (.arr (d.communities.map .str))) =
      .ok d.communities :=
    list_kept fun community _ => text_kept community
  obtain ⟨values, hrecord, hlookup⟩ := record_kept rules d.toJson rfl (by decide)
    (.field (discard_ok hcommunities) <| .field (discard_ok (uint32_kept d.retries)) <|
      .field (discard_ok (uint8_kept d.version)) <|
      .field (discard_ok (text_kept d.hostAddresses)) <|
      .field (discard_ok (uint64_kept d.sendInterval)) <|
      .field (discard_ok (uint64_kept d.waitTime)) .nil) .value "SnmpDefinition"
  rw [ofDoc, hrecord, ok_bind]
  simp [FieldValues.require, FieldValues.get, hlookup, toJson, Json.get?, List.lookup_cons,
    hcommunities]

end SnmpDefinition

/-! ## Any definition -/

namespace Definition

theorem ofOptions_toJson (d : Definition) : ofOptions d.method d.toJson.sorted = .ok d := by
  cases d with
  | udpPing d => exact congrArg (Except.map udpPing) d.ofDoc_kept
  | traceroute d => exact congrArg (Except.map traceroute) d.ofDoc_kept
  | snmp d => exact congrArg (Except.map snmp) d.ofDoc_kept

theorem method_of_ofOptions {method : Method} {options : Json} {d : Definition}
    (h : ofOptions method options = .ok d) : d.method = method := by
  cases method <;> obtain ⟨d, -, rfl⟩ := exists_of_map_eq_ok h <;> rfl

end Definition

namespace MethodRegistry

/-- The built-in registry knows the three methods by their names, and nothing else. -/
theorem exists_method_of_find? {name : String} {registration : Registration}
    (h : builtIn.find? name = some registration) :
    ∃ method : Method, Text.folded name = method.name := by
  have hnames : builtIn.names =
      [Method.snmp.name, Method.traceroute.name, Method.udpPing.name] := rfl
  have hmem : Text.folded name ∈ builtIn.names :=
    List.mem_map_of_mem (f := Prod.fst) (Json.mem_of_lookup h)
  rw [hnames] at hmem
  simp only [List.mem_cons, List.not_mem_nil, or_false] at hmem
  obtain hname | hname | hname := hmem
  · exact ⟨.snmp, hname⟩
  · exact ⟨.traceroute, hname⟩
  · exact ⟨.udpPing, hname⟩

theorem builtIn_find?_method {name : String} (method : Method)
    (h : Text.folded name = method.name) : builtIn.find? name = some (.ofMethod method) := by
  rw [find?, h]
  cases method <;> rfl

theorem folded_name (method : Method) : Text.folded method.name = method.name := by
  cases method <;> decide

theorem builtIn_definition {name : String} (method : Method) (h : Text.folded name = method.name)
    (options : Json) :
    builtIn.definition name options =
      match Definition.ofOptions method options with
      | .ok d => .ok d
      | .error e => .error (.invalidOptions (Text.folded name) e) := by
  rw [definition, builtIn_find?_method method h]
  rfl

theorem builtIn_definition_eq_ok {name : String} {options : Json} {d : Definition} :
    builtIn.definition name options = .ok d ↔
      Text.folded name = d.method.name ∧ Definition.ofOptions d.method options = .ok d := by
  constructor
  · intro h
    cases hfind : builtIn.find? name with
    | none =>
      rw [definition, hfind] at h
      cases h
    | some registration =>
      obtain ⟨method, hname⟩ := exists_method_of_find? hfind
      rw [builtIn_definition method hname] at h
      split at h
      · rename_i hoptions
        cases h
        rw [Definition.method_of_ofOptions hoptions]
        exact ⟨hname, hoptions⟩
      · cases h
  · rintro ⟨hname, hoptions⟩
    rw [builtIn_definition d.method hname, hoptions]

/-- The written form of a definition makes that definition again, whatever the options that it was
made from and however its method is spelled. -/
theorem definition_of_written {name : String} {options : Json} {d : Definition}
    (h : builtIn.definition name options = .ok d) :
    Text.folded name = d.method.name ∧
      (∀ spelling, Text.folded spelling = Text.folded name →
        builtIn.definition spelling d.toJson.sorted = .ok d) ∧
      ∃ again, builtIn.definition d.method.name d.toJson.sorted = .ok again ∧ again = d ∧
        again.toJson = d.toJson := by
  obtain ⟨hname, -⟩ := builtIn_definition_eq_ok.1 h
  have hwritten : ∀ spelling, Text.folded spelling = d.method.name →
      builtIn.definition spelling d.toJson.sorted = .ok d := fun spelling hspelling =>
    builtIn_definition_eq_ok.2 ⟨hspelling, d.ofOptions_toJson⟩
  exact ⟨hname, fun spelling hspelling => hwritten spelling (hspelling.trans hname), d,
    hwritten d.method.name (folded_name d.method), rfl, rfl⟩

/-- Another name for the host, a key that means nothing, and the longest interval. -/
def sparseOptions : Json := .obj [
  ("colour", .null),
  ("interval", .int 18446744073709551615),
  ("url", .str "192.0.2.1")]

def sparseDefinition : PingDefinition :=
  { PingDefinition.ofHost "192.0.2.1" with interval := 18446744073709551615 }

theorem definition_of_written_sparse :
    builtIn.definition "UdpPing" sparseOptions = .ok (.udpPing sparseDefinition) ∧
      builtIn.definition "UDPPING" sparseDefinition.toJson.sorted =
        .ok (.udpPing sparseDefinition) := by
  have h : builtIn.definition "UdpPing" sparseOptions = .ok (.udpPing sparseDefinition) := rfl
  exact ⟨h, (definition_of_written h).2.1 "UDPPING" (by decide)⟩

end MethodRegistry

end ProbeAgent
