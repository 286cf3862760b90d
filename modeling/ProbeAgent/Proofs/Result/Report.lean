import ProbeAgent.Proofs.Json.Decode
import ProbeAgent.Proofs.Net.Address
import ProbeAgent.Proofs.Task.Spec
import ProbeAgent.Result.Report

/-!
# Reports that were written

A report whose doubles are finite is read back from its written form.  A result is written without a
tag, so it matters that the kinds that are tried before its own do not fit: each of them requires a
field that it does not have.
-/

namespace ProbeAgent

open Doc

/-! ## Statistics and probes -/

theorem IpAddress.ofDoc_kept (a : IpAddress) : ofDoc (kept a.toJson) = .ok a := by
  have hkept : kept a.toJson = .str a.render := rfl
  rw [hkept, ofDoc, a.parse?_render]
  rfl

theorem PingResponse.ofDoc_kept (r : PingResponse) : ofDoc (kept r.toJson) = .ok r := by
  cases r <;> rfl

namespace RttStatistics

/-- The doubles are ones that JSON has. -/
def IsFinite (s : RttStatistics) : Prop :=
  s.average.isFinite = true ∧ s.deviation.isFinite = true

theorem ofDoc_kept {s : RttStatistics} (h : s.IsFinite) : ofDoc (kept s.toJson) = .ok s := by
  have haverage := double_kept h.1
  have hdeviation := double_kept h.2
  obtain ⟨values, hrecord, hlookup⟩ := record_kept rules s.toJson rfl (by decide)
    (.field (discard_ok (uint64_kept s.min)) <| .field (discard_ok (uint64_kept s.max)) <|
      .field (discard_ok haverage) <| .field (discard_ok hdeviation) <|
      .field (discard_ok (count_kept s.count)) .nil) .value "RttStatistics"
  rw [ofDoc, hrecord, ok_bind]
  simp [FieldValues.require, hlookup, toJson, Json.get?, List.lookup_cons, haverage, hdeviation]

end RttStatistics

namespace PingProbe

theorem option_microsJson (t : Option UInt64) :
    Doc.option Doc.uint64 (kept (microsJson t)) = .ok t :=
  option_ofOption (fun t _ => uint64_kept t) nofun

theorem ofDoc_kept (p : PingProbe) : ofDoc (kept p.toJson) = .ok p := by
  have hsource : Doc.option IpAddress.ofDoc (kept (.ofOption (p.source.map IpAddress.toJson))) =
      .ok p.source :=
    option_ofOption (fun a _ => a.ofDoc_kept) nofun
  have herror : ∀ error ∈ p.error, Doc.option Doc.text (kept (.str error)) = .ok (some error) :=
    fun error _ => option_kept (text_kept error) nofun
  have hlast : Written [.of "error" .allowed (Doc.option Doc.text)]
      (Json.optionalField "error" (p.error.map .str)) := by
    rw [← List.append_nil (Json.optionalField _ _)]
    exact .optional herror (by decide) .nil
  obtain ⟨values, hrecord, hlookup⟩ := record_kept rules p.toJson rfl (by decide)
    (.field (discard_ok (option_microsJson p.sendTime)) <|
      .field (discard_ok (option_microsJson p.receiveTime)) <| .field (discard_ok hsource) <|
      .field (discard_ok p.response.ofDoc_kept) hlast) .value "PingProbe"
  have hget : values.get "error" none (Doc.option Doc.text) = .ok p.error :=
    FieldValues.get_optional (by simp [hlookup, toJson, Json.get?, List.lookup_cons]) herror
  rw [ofDoc, hrecord, ok_bind]
  simp [↓hget, FieldValues.require, FieldValues.get, hlookup, toJson, Json.get?, List.lookup_cons,
    option_microsJson, hsource, PingResponse.ofDoc_kept]

end PingProbe

/-! ## Ping -/

namespace PingReport

def IsFinite (r : PingReport) : Prop := r.statistics.IsFinite

theorem ofDoc_kept {r : PingReport} (h : r.IsFinite) : ofDoc (kept r.toJson) = .ok r := by
  have hrtts : Doc.list Doc.uint64 (kept (.arr (r.rtts.map fun t => .int t.toNat))) = .ok r.rtts :=
    list_kept fun t _ => uint64_kept t
  have hprobes : Doc.list PingProbe.ofDoc (kept (.arr (r.probes.map PingProbe.toJson))) =
      .ok r.probes :=
    list_kept fun p _ => p.ofDoc_kept
  obtain ⟨values, hrecord, hlookup⟩ := record_kept rules r.toJson rfl (by decide)
    (.field (discard_ok hrtts) <| .field (discard_ok hprobes) <|
      .field (discard_ok (RttStatistics.ofDoc_kept h)) .nil) .value "PingReport"
  rw [ofDoc, hrecord, ok_bind]
  simp [FieldValues.require, hlookup, toJson, Json.get?, List.lookup_cons, hrtts, hprobes,
    RttStatistics.ofDoc_kept h]

end PingReport

/-! ## Traceroute -/

namespace HopPing

theorem ofDoc_kept (p : HopPing) : ofDoc (kept p.toJson) = .ok p := by
  have hrtt := PingProbe.option_microsJson p.rtt
  obtain ⟨values, hrecord, hlookup⟩ := record_kept rules p.toJson rfl (by decide)
    (.field (discard_ok p.response.ofDoc_kept) <| .field (discard_ok hrtt) .nil) .value "HopPing"
  rw [ofDoc, hrecord, ok_bind]
  simp [FieldValues.require, FieldValues.get, hlookup, toJson, Json.get?, List.lookup_cons, hrtt,
    PingResponse.ofDoc_kept]

end HopPing

namespace HopReport

def IsFinite (r : HopReport) : Prop :=
  r.rttAverage.isFinite = true ∧ r.rttDeviation.isFinite = true

theorem ofDoc_kept {r : HopReport} (h : r.IsFinite) : ofDoc (kept r.toJson) = .ok r := by
  have haverage := double_kept h.1
  have hdeviation := double_kept h.2
  have haddress : ∀ a ∈ r.address, Doc.option IpAddress.ofDoc (kept a.toJson) = .ok (some a) :=
    fun a _ => option_kept a.ofDoc_kept nofun
  have hpings : Doc.list HopPing.ofDoc (kept (.arr (r.pings.map HopPing.toJson))) = .ok r.pings :=
    list_kept fun p _ => p.ofDoc_kept
  obtain ⟨values, hrecord, hlookup⟩ := record_kept rules r.toJson rfl (by decide)
    (.field (discard_ok (count_kept r.hop)) <| .optional haddress (by decide) <|
      .field (discard_ok hpings) <| .field (discard_ok (count_kept r.ttl)) <|
      .field (discard_ok (uint64_kept r.rttMin)) <| .field (discard_ok (uint64_kept r.rttMax)) <|
      .field (discard_ok haverage) <| .field (discard_ok hdeviation) <|
      .field (discard_ok (count_kept r.rttCount)) .nil) .value "HopReport"
  have hget : values.get "address" none (Doc.option IpAddress.ofDoc) = .ok r.address :=
    FieldValues.get_optional
      (by simp [hlookup, toJson, Json.get?, List.lookup_append, List.lookup_cons]) haddress
  rw [ofDoc, hrecord, ok_bind]
  simp [↓hget, FieldValues.require, hlookup, toJson, Json.get?, List.lookup_append,
    List.lookup_cons, hpings, haverage, hdeviation]

end HopReport

namespace TracerouteReport

def IsFinite (r : TracerouteReport) : Prop := ∀ hop ∈ r.results, hop.IsFinite

theorem ofDoc_kept {r : TracerouteReport} (h : r.IsFinite) : ofDoc (kept r.toJson) = .ok r := by
  have hresults : Doc.list HopReport.ofDoc (kept (.arr (r.results.map HopReport.toJson))) =
      .ok r.results :=
    list_kept fun hop hhop => HopReport.ofDoc_kept (h hop hhop)
  obtain ⟨values, hrecord, hlookup⟩ := record_kept rules r.toJson rfl (by decide)
    (.field (discard_ok (count_kept r.hopCount)) <| .field (discard_ok hresults) .nil) .value
    "TracerouteReport"
  rw [ofDoc, hrecord, ok_bind]
  simp [FieldValues.require, hlookup, toJson, Json.get?, List.lookup_cons, hresults]

end TracerouteReport

/-! ## Discovery -/

namespace SnmpDevice

theorem ofDoc_kept (d : SnmpDevice) : ofDoc (kept d.toJson) = .ok d := by
  obtain ⟨values, hrecord, hlookup⟩ := record_kept rules d.toJson rfl (by decide)
    (.field (discard_ok d.address.ofDoc_kept) <| .field (discard_ok (text_kept d.community)) <|
      .field (discard_ok (uint64_kept d.rtt)) .nil) .value "SnmpDevice"
  rw [ofDoc, hrecord, ok_bind]
  simp [FieldValues.require, hlookup, toJson, Json.get?, List.lookup_cons, IpAddress.ofDoc_kept]

end SnmpDevice

namespace SnmpReport

theorem ofDoc_kept (r : SnmpReport) : ofDoc (kept r.toJson) = .ok r := by
  have hdevices : Doc.list SnmpDevice.ofDoc (kept (.arr (r.devices.map SnmpDevice.toJson))) =
      .ok r.devices :=
    list_kept fun d _ => d.ofDoc_kept
  obtain ⟨values, hrecord, hlookup⟩ := record_kept rules r.toJson rfl (by decide)
    (.field (discard_ok hdevices) .nil) .value "SnmpReport"
  rw [ofDoc, hrecord, ok_bind]
  simp [FieldValues.require, hlookup, toJson, Json.get?, hdevices]

end SnmpReport

/-! ## Any result -/

namespace RunResult

def IsFinite : RunResult → Prop
  | ping r => r.IsFinite
  | traceroute r => r.IsFinite
  | snmp _ => True

theorem ping_ofDoc_eq_error (value : Json) {fields : Json.Fields} (names : List String)
    (hvalue : value = .obj fields) (hnames : Json.keys fields = names)
    (hunknown : ∀ name ∈ names, PingReport.rules.find? (·.answersTo name) = none) :
    ∃ error, PingReport.ofDoc (kept value) = .error error := by
  obtain ⟨error, herror⟩ := record_kept_eq_error PingReport.rules value names hvalue hnames
    hunknown List.mem_cons_self rfl .value "PingReport"
  exact ⟨error, by rw [PingReport.ofDoc, herror]; rfl⟩

theorem traceroute_ofDoc_eq_error (r : SnmpReport) :
    ∃ error, TracerouteReport.ofDoc (kept r.toJson) = .error error := by
  obtain ⟨error, herror⟩ := record_kept_eq_error TracerouteReport.rules r.toJson ["devices"] rfl rfl
    (by decide) List.mem_cons_self rfl .value "TracerouteReport"
  exact ⟨error, by rw [TracerouteReport.ofDoc, herror]; rfl⟩

/-- A result is read as the kind that it is. -/
theorem ofDoc_kept {r : RunResult} (h : r.IsFinite) : ofDoc (kept r.toJson) = .ok r := by
  rw [ofDoc, jsonValue_kept, ok_bind]
  cases r with
  | ping r =>
    rw [toJson, PingReport.ofDoc_kept h]
    rfl
  | traceroute r =>
    obtain ⟨error, hping⟩ := ping_ofDoc_eq_error r.toJson ["hop_count", "results"] rfl rfl
      (by decide)
    rw [toJson, hping, TracerouteReport.ofDoc_kept h]
    rfl
  | snmp r =>
    obtain ⟨error, hping⟩ := ping_ofDoc_eq_error r.toJson ["devices"] rfl rfl (by decide)
    obtain ⟨other, htraceroute⟩ := traceroute_ofDoc_eq_error r
    rw [toJson, hping, htraceroute, SnmpReport.ofDoc_kept r]
    rfl

end RunResult

/-! ## Reports -/

namespace Report

def IsFinite (r : Report) : Prop := ∀ result ∈ r.results, result.IsFinite

/-- A report whose doubles are finite is read back from its written form, with every result as the
kind that it was. -/
theorem decodeValue_report {r : Report} (h : r.IsFinite) :
    decodeValue (ofDoc .value) r.toJson.sorted = .ok r := by
  have htime : Doc.instant (kept r.reportTime.toJson) = .ok r.reportTime := instant_kept _
  have hresults : Doc.list RunResult.ofDoc (kept (.arr (r.results.map RunResult.toJson))) =
      .ok r.results :=
    list_kept fun result hresult => RunResult.ofDoc_kept (h result hresult)
  obtain ⟨values, hrecord, hlookup⟩ := record_kept rules r.toJson rfl (by decide)
    (.field (discard_ok r.taskId.ofDoc_kept) <| .field (discard_ok htime) <|
      .field (discard_ok hresults) .nil) .value "Report"
  show ofDoc .value (kept r.toJson) = _
  rw [ofDoc, hrecord, ok_bind]
  simp [FieldValues.require, hlookup, toJson, Json.get?, List.lookup_cons, TaskId.ofDoc_kept, htime,
    hresults]

/-- A result of every kind, with fields that are missing and lists that are empty. -/
def mixed : Report where
  taskId := .ofNat 3
  reportTime := .epoch
  results := [
    .snmp ⟨[]⟩,
    .traceroute ⟨1, [⟨0, none, [⟨.timeout, none⟩], 1, 0, 0, 1.5, 0.25, 0⟩]⟩,
    .ping ⟨[1200], [⟨some 5, some 1205, none, .udpResponse, none⟩, .unanswered],
      ⟨1200, 1200, 1200, 0, 1⟩⟩,
    .traceroute ⟨0, []⟩]

theorem decodeValue_report_mixed :
    mixed.IsFinite ∧ decodeValue (ofDoc .value) mixed.toJson.sorted = .ok mixed := by
  have h : mixed.IsFinite := by
    intro result hresult
    simp only [mixed, List.mem_cons, List.not_mem_nil, or_false] at hresult
    obtain rfl | rfl | rfl | rfl := hresult
    · trivial
    · intro hop hhop
      cases List.mem_singleton.1 hhop
      exact ⟨by decide, by decide⟩
    · exact ⟨by decide, by decide⟩
    · exact nofun
  exact ⟨h, decodeValue_report h⟩

end Report

end ProbeAgent
