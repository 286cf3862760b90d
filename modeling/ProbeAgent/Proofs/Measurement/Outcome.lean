import ProbeAgent.Proofs.Measurement.Route
import ProbeAgent.Proofs.Measurement.Scan

/-!
# All or nothing

The start of a prepared measurement ends in one of two ways, whatever the network does and whenever
it is cancelled: well, with a result that is whole, or as cancelled, with nothing left of this run
or of any before it (`PreparedFor.start_all_or_nothing`).
-/

namespace ProbeAgent

namespace Measurement

/-- The whole result of a run with these acts: of a ping all probes, of a traceroute all hops up to
the end of the route, and of a discovery the devices among all hosts. -/
inductive IsComplete (ports : DrawnPorts) (acts : List Act) :
    Definition → Measurement → RunResult → Prop where
  | ping {d accepted : PingDefinition} {m : Ping} (h : d.prepared = .ok accepted)
      (hcount : m.probes.length = d.count.toNat)
      (hacts : exchanges acts = m.probes.map (Exchange.mk accepted.socketSpec)) :
      IsComplete ports acts (.udpPing d) (.ping m) (.ping (.ofProbes m.probes))
  | traceroute {d : TracerouteDefinition} {m : Traceroute} {n : Nat} {report : TracerouteReport}
      (h : RouteOf d ports acts n m.endOfRoute report) :
      IsComplete ports acts (.traceroute d) (.traceroute m) (.traceroute report)
  | snmp {d : SnmpDefinition} {m : Discovery} {hosts : List Ipv4} {visits : List Visit}
      (hparse : Snmp.parseHosts d.hostAddresses = .ok hosts)
      (h : Scan d hosts visits (traffic acts) m.devices) :
      IsComplete ports acts (.snmp d) (.snmp m) (.snmp ⟨m.devices⟩)

/-- Nothing is kept of any run. -/
def HoldsNothing : Measurement → Prop
  | ping m => m.probes = []
  | traceroute m => m.hops = [] ∧ m.endOfRoute = false
  | snmp m => m.devices = []

/-- The start ended well. -/
structure Finished (ports : DrawnPorts) (definition : Definition) (acts : List Act)
    (outcome : Except MeasurementError Unit) (next : Measurement) : Prop where
  outcome_eq : outcome = .ok ()
  status_eq : next.status = .finished
  complete : ∃ result, next.result = some result ∧ IsComplete ports acts definition next result

/-- The start ended as cancelled. -/
structure Cancelled (outcome : Except MeasurementError Unit) (next : Measurement) : Prop where
  outcome_eq : outcome = .error .cancelled
  status_eq : next.status = .unknown
  nothing : next.HoldsNothing
  result_eq : next.result = none

variable {ports : DrawnPorts} {acts : List Act}

theorem ping_start {d accepted : PingDefinition} (haccepted : d.prepared = .ok accepted) (m : Ping)
    {result : Except MeasurementError (List PingProbe)}
    (hrun : accepted.probes.run.Yields acts result) :
    (¬ WasTold acts ∧
        Finished ports (.udpPing d) acts (m.after result).1 (ping (m.after result).2)) ∨
      (WasTold acts ∧ Cancelled (m.after result).1 (ping (m.after result).2)) := by
  by_cases htold : WasTold acts
  · right
    have hcancelled := (accepted.heeds_probes acts result hrun).2 htold
    subst hcancelled
    exact ⟨htold, rfl, rfl, rfl, rfl⟩
  · left
    obtain ⟨probes, log, rfl, ⟨hlength, rfl⟩, hlog⟩ := accepted.logs_probes acts result hrun htold
    have hexchanges := hlog []
    rw [List.append_nil, exchanges, List.append_nil] at hexchanges
    have hcount : accepted.count = d.count := by
      obtain ⟨-, rfl⟩ := PingDefinition.prepared_eq_ok haccepted
      rfl
    rw [hcount] at hlength
    exact ⟨htold, rfl, rfl, _, rfl, .ping haccepted hlength hexchanges⟩

theorem traceroute_start {d accepted : TracerouteDefinition}
    (haccepted : d.prepared ports = .ok accepted) (m : Traceroute)
    {result : Except MeasurementError (List Hop)} (hrun : accepted.hops.run.Yields acts result) :
    (¬ WasTold acts ∧
        Finished ports (.traceroute d) acts (m.after result).1 (traceroute (m.after result).2)) ∨
      (WasTold acts ∧ Cancelled (m.after result).1 (traceroute (m.after result).2)) := by
  by_cases htold : WasTold acts
  · right
    have hcancelled := (accepted.heeds_hopsFrom 1 maxHops acts result hrun).2 htold
    subst hcancelled
    exact ⟨htold, rfl, rfl, ⟨rfl, rfl⟩, rfl⟩
  · left
    have hping := TracerouteDefinition.prepared_hopPing haccepted
    obtain ⟨hops, log, rfl, ⟨groups, hsurvey, rfl, rfl⟩, hlog⟩ :=
      TracerouteDefinition.logs_hopsFrom hping 1 maxHops acts result hrun htold
    have hexchanges := hlog []
    rw [List.append_nil, exchanges, List.append_nil] at hexchanges
    have hcount : accepted.count = d.count := by
      obtain ⟨-, rfl⟩ := TracerouteDefinition.prepared_eq_ok haccepted
      rfl
    rw [hcount] at hsurvey
    exact ⟨htold, rfl, rfl, _, rfl, .traceroute (hsurvey.routeOf haccepted hexchanges)⟩

theorem snmp_start {d : SnmpDefinition} {m : Discovery} (haccepted : d.prepared = .ok m.hosts)
    {result : Except MeasurementError (List SnmpDevice)}
    (hrun : (d.scan m.hosts).run.Yields acts result) :
    (¬ WasTold acts ∧ Finished ports (.snmp d) acts (m.after result).1 (snmp (m.after result).2)) ∨
      (WasTold acts ∧ Cancelled (m.after result).1 (snmp (m.after result).2)) := by
  by_cases htold : WasTold acts
  · right
    have hcancelled := (d.heeds_scan m.hosts acts result hrun).2 htold
    subst hcancelled
    exact ⟨htold, rfl, rfl, rfl, rfl⟩
  · left
    obtain ⟨devices, rfl, visits, hscan⟩ := d.transmits_scan m.hosts acts result hrun htold
    obtain ⟨-, -, hparse⟩ := SnmpDefinition.parseHosts_of_prepared haccepted
    exact ⟨htold, rfl, rfl, _, rfl, .snmp hparse hscan⟩

/-- The start of a prepared measurement, also a later one, ends well with the whole result unless it
is told that it has been cancelled, and otherwise as cancelled and with nothing. -/
theorem PreparedFor.start_all_or_nothing {definition : Definition} {measurement next : Measurement}
    {outcome : Except MeasurementError Unit} (hprepared : PreparedFor ports definition measurement)
    (hstart : measurement.start.Yields acts (outcome, next)) :
    (¬ WasTold acts ∧ Finished ports definition acts outcome next) ∨
      (WasTold acts ∧ Cancelled outcome next) := by
  cases hprepared.isSetFor with
  | @ping _ _ m haccepted hm =>
    obtain ⟨result, hrun, rfl, rfl⟩ := ping_start_yields hm hstart
    exact ping_start haccepted m hrun
  | @traceroute _ _ m haccepted hm =>
    obtain ⟨result, hrun, rfl, rfl⟩ := traceroute_start_yields hm hstart
    exact traceroute_start haccepted m hrun
  | snmp haccepted hm =>
    obtain ⟨result, hrun, rfl, rfl⟩ := snmp_start_yields hm hstart
    exact snmp_start haccepted hrun

/-- A ping with one probe that has been prepared, and what its last run left. -/
def onePing (status : MeasurementStatus) (probes : List PingProbe) : Measurement :=
  .ping ⟨some { PingDefinition.ofHost "192.0.2.1" with count := 1, destinationPort := 33434 },
    status, probes⟩

/-- The destination answers. -/
def onePingAnswered : List Act := [
  .isCancelled false, .openSocket ⟨"192.0.2.1", 0, 33434, 0⟩ (.ok ()),
  .send defaultPayload (.ok 100), .looks 1000 1, .isCancelled false,
  .receive (.ok (some (.datagram [] 160))), .closeSocket]

/-- The run is cancelled while it waits. -/
def onePingCancelled : List Act := [
  .isCancelled false, .openSocket ⟨"192.0.2.1", 0, 33434, 0⟩ (.ok ()),
  .send defaultPayload (.ok 200), .looks 1000 1, .isCancelled true, .closeSocket]

/-- A first run that ends well, and a second one of which nothing is left, nor of the first. -/
theorem onePing_twice :
    PreparedFor (.ofDraws 0 0) (.udpPing { PingDefinition.ofHost "192.0.2.1" with count := 1 })
        (onePing .finished [⟨some 100, some 160, none, .udpResponse, none⟩]) ∧
      (∃ result, IsComplete (.ofDraws 0 0) onePingAnswered
        (.udpPing { PingDefinition.ofHost "192.0.2.1" with count := 1 })
        (onePing .finished [⟨some 100, some 160, none, .udpResponse, none⟩]) result) ∧
      (onePing .finished [⟨some 100, some 160, none, .udpResponse, none⟩]).start.Yields
        onePingCancelled (.error .cancelled, onePing .unknown []) ∧
      (onePing .unknown []).HoldsNothing ∧ (onePing .unknown []).result = none := by
  have hprepared : PreparedFor (.ofDraws 0 0)
      (.udpPing { PingDefinition.ofHost "192.0.2.1" with count := 1 }) (onePing .unknown []) :=
    .prepare (show (unprepared .udpPing).prepare _ _ = _ from rfl)
  have hfirst : (onePing .unknown []).start.Yields onePingAnswered
      (.ok (), onePing .finished [⟨some 100, some 160, none, .udpResponse, none⟩]) :=
    .act (.isCancelled _) <| .act (.openSocket _) <| .act (.send _) <| .act (.looks _) <|
    .act (.isCancelled _) <| .act (.receive _) <| .act .closeSocket .done
  have hsecond : (onePing .finished [⟨some 100, some 160, none, .udpResponse, none⟩]).start.Yields
      onePingCancelled (.error .cancelled, onePing .unknown []) :=
    .act (.isCancelled _) <| .act (.openSocket _) <| .act (.send _) <| .act (.looks _) <|
    .act (.isCancelled _) <| .act .closeSocket .done
  have hrun := hprepared.start hfirst
  rcases hprepared.start_all_or_nothing hfirst with ⟨-, hfinished⟩ | ⟨htold, -⟩
  · rcases hrun.start_all_or_nothing hsecond with ⟨htold, -⟩ | ⟨-, hcancelled⟩
    · exact absurd (by simp [WasTold, onePingCancelled]) htold
    · obtain ⟨result, -, hcomplete⟩ := hfinished.complete
      exact ⟨hrun, ⟨result, hcomplete⟩, hsecond, hcancelled.nothing, hcancelled.result_eq⟩
  · exact absurd htold (by simp [WasTold, onePingAnswered])

end Measurement

end ProbeAgent
