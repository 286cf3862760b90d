import ProbeAgent.Measurement.Basic
import ProbeAgent.Proofs.Json.Value
import ProbeAgent.Proofs.Net.Session
import ProbeAgent.Proofs.Snmp.Hosts

/-!
# Lives of measurements

A measurement is prepared for a definition, and from then on run and stopped any number of times.
It keeps what the preparation accepted, with the ports that were drawn for it
(`PreparedFor.isSetFor`).  A start runs that, and the measurement is what the run leaves
(`start_eq`).
-/

namespace ProbeAgent

/-! ## Accepted definitions -/

namespace PingDefinition

theorem checkTarget_eq_ok {host : String} {count : UInt32} (h : checkTarget host count = .ok ()) :
    ¬ (Text.trim host.toList).isEmpty ∧ count ≠ 0 := by
  unfold checkTarget at h
  split at h
  · cases h
  · split at h
    · cases h
    · exact ⟨‹_›, ‹_›⟩

theorem prepared_eq_ok {d accepted : PingDefinition} (h : d.prepared = .ok accepted) :
    checkTarget d.host d.count = .ok () ∧ accepted =
      { d with destinationPort :=
          if d.destinationPort = 0 then defaultDestinationPort else d.destinationPort } := by
  obtain ⟨_, hcheck, hrest⟩ := exists_of_bind_eq_ok h
  cases hrest
  exact ⟨hcheck, rfl⟩

theorem count_ne_zero_of_prepared {d accepted : PingDefinition} (h : d.prepared = .ok accepted) :
    accepted.count ≠ 0 := by
  obtain ⟨hcheck, rfl⟩ := prepared_eq_ok h
  exact (checkTarget_eq_ok hcheck).2

theorem prepared_of_port {d : PingDefinition} (h : checkTarget d.host d.count = .ok ())
    (hport : d.destinationPort ≠ 0) : d.prepared = .ok d := by
  unfold prepared
  rw [h, if_neg hport]
  rfl

end PingDefinition

namespace TracerouteDefinition

variable {d accepted : TracerouteDefinition} {ports : DrawnPorts}

theorem prepared_eq_ok (h : d.prepared ports = .ok accepted) :
    PingDefinition.checkTarget d.host d.count = .ok () ∧ accepted =
      { d with
        destinationPort := if d.destinationPort = 0 then ports.destination else d.destinationPort
        sourcePort := if d.sourcePort = 0 then ports.source else d.sourcePort } := by
  unfold prepared at h
  by_cases htype : d.pingType = .udp
  · rw [if_pos htype] at h
    obtain ⟨_, hcheck, hrest⟩ := exists_of_bind_eq_ok h
    cases hrest
    exact ⟨hcheck, rfl⟩
  · rw [if_neg htype] at h
    cases h

theorem count_ne_zero_of_prepared (h : d.prepared ports = .ok accepted) : accepted.count ≠ 0 := by
  obtain ⟨hcheck, rfl⟩ := prepared_eq_ok h
  exact (PingDefinition.checkTarget_eq_ok hcheck).2

/-- The pings of an accepted route are accepted as they are. -/
theorem prepared_hopPing (h : d.prepared ports = .ok accepted) (ttl : UInt8) :
    (accepted.hopPing ttl).prepared = .ok (accepted.hopPing ttl) := by
  obtain ⟨hcheck, rfl⟩ := prepared_eq_ok h
  refine PingDefinition.prepared_of_port hcheck ?_
  show (if d.destinationPort = 0 then ports.destination else d.destinationPort) ≠ 0
  split
  · intro hzero
    have hge := ports.destination_ge
    rw [hzero] at hge
    contradiction
  · assumption

end TracerouteDefinition

theorem SnmpDefinition.parseHosts_of_prepared {d : SnmpDefinition} {hosts : List Ipv4}
    (h : d.prepared = .ok hosts) :
    d.communities ≠ [] ∧ d.retries ≠ 0 ∧ Snmp.parseHosts d.hostAddresses = .ok hosts := by
  unfold prepared at h
  by_cases hversion : d.version = 1 ∨ d.version = 2
  · rw [if_pos hversion] at h
    dsimp only at h
    split at h
    · cases h
    · rename_i hcommunities
      split at h
      · cases h
      · rename_i hretries
        cases hparse : Snmp.parseHosts d.hostAddresses with
        | error e =>
          rw [hparse] at h
          cases h
        | ok hosts' =>
          rw [hparse] at h
          cases h
          exact ⟨fun hnil => hcommunities (by rw [hnil]; rfl), hretries, rfl⟩
  · rw [if_neg hversion] at h
    cases h

theorem SnmpDefinition.prepared_eq_ok {d : SnmpDefinition} {hosts : List Ipv4}
    (h : d.prepared = .ok hosts) : d.communities ≠ [] ∧ d.retries ≠ 0 ∧ hosts ≠ [] := by
  obtain ⟨hcommunities, hretries, hparse⟩ := parseHosts_of_prepared h
  exact ⟨hcommunities, hretries, Snmp.parseHosts_ne_nil hparse⟩

/-! ## Starts -/

/-- How the start of a ping ends, and what the run leaves of it. -/
def Ping.after (ping : Ping) :
    Except MeasurementError (List PingProbe) → Except MeasurementError Unit × Ping
  | .ok probes => (.ok (), { ping with status := .finished, probes := probes })
  | .error e => (.error e, { ping with status := .unknown, probes := [] })

theorem Ping.start_eq {ping : Ping} {d : PingDefinition} (h : ping.definition = some d) :
    ping.start = ping.after <$> d.probes.run := by
  obtain ⟨definition, status, probes⟩ := ping
  cases h
  show Session.bind _ _ = Session.bind _ _
  congr 1
  funext result
  cases result <;> rfl

@[simp] theorem Ping.definition_after (ping : Ping)
    (result : Except MeasurementError (List PingProbe)) :
    (ping.after result).2.definition = ping.definition := by
  cases result <;> rfl

/-- How the start of a traceroute ends, and what the run leaves of it. -/
def Traceroute.after (route : Traceroute) :
    Except MeasurementError (List Hop) → Except MeasurementError Unit × Traceroute
  | .ok hops => (.ok (), { route with
      status := .finished
      hops := hops
      endOfRoute := TracerouteDefinition.endsRoute hops })
  | .error e => (.error e, { route with
      status := if e = .cancelled then .unknown else .error
      hops := []
      endOfRoute := false })

theorem Traceroute.start_eq {route : Traceroute} {d : TracerouteDefinition}
    (h : route.definition = some d) : route.start = route.after <$> d.hops.run := by
  obtain ⟨definition, status, hops, endOfRoute⟩ := route
  cases h
  show Session.bind _ _ = Session.bind _ _
  congr 1
  funext result
  cases result <;> rfl

@[simp] theorem Traceroute.definition_after (route : Traceroute)
    (result : Except MeasurementError (List Hop)) :
    (route.after result).2.definition = route.definition := by
  cases result <;> rfl

/-- How the start of a discovery ends, and what the run leaves of it. -/
def Discovery.after (discovery : Discovery) :
    Except MeasurementError (List SnmpDevice) → Except MeasurementError Unit × Discovery
  | .ok devices => (.ok (), { discovery with status := .finished, devices := devices })
  | .error e => (.error e, { discovery with status := .unknown, devices := [] })

theorem Discovery.start_eq {discovery : Discovery} {d : SnmpDefinition}
    (h : discovery.definition = some d) :
    discovery.start = discovery.after <$> (d.scan discovery.hosts).run := by
  obtain ⟨definition, hosts, status, devices⟩ := discovery
  cases h
  show Session.bind _ _ = Session.bind _ _
  congr 1
  funext result
  cases result <;> rfl

@[simp] theorem Discovery.definition_after (discovery : Discovery)
    (result : Except MeasurementError (List SnmpDevice)) :
    (discovery.after result).2.definition = discovery.definition := by
  cases result <;> rfl

@[simp] theorem Discovery.hosts_after (discovery : Discovery)
    (result : Except MeasurementError (List SnmpDevice)) :
    (discovery.after result).2.hosts = discovery.hosts := by
  cases result <;> rfl

namespace Measurement

variable {next : Measurement} {acts : List Act} {outcome : Except MeasurementError Unit}

theorem ping_start_yields {m : Ping} {d : PingDefinition} (hm : m.definition = some d)
    (h : (ping m).start.Yields acts (outcome, next)) :
    ∃ result, d.probes.run.Yields acts result ∧ outcome = (m.after result).1 ∧
      next = ping (m.after result).2 := by
  obtain ⟨started, hstart, heq⟩ := Session.Yields.of_map h
  rw [Ping.start_eq hm] at hstart
  obtain ⟨result, hrun, rfl⟩ := Session.Yields.of_map hstart
  cases heq
  exact ⟨result, hrun, rfl, rfl⟩

theorem traceroute_start_yields {m : Traceroute} {d : TracerouteDefinition}
    (hm : m.definition = some d) (h : (traceroute m).start.Yields acts (outcome, next)) :
    ∃ result, d.hops.run.Yields acts result ∧ outcome = (m.after result).1 ∧
      next = traceroute (m.after result).2 := by
  obtain ⟨started, hstart, heq⟩ := Session.Yields.of_map h
  rw [Traceroute.start_eq hm] at hstart
  obtain ⟨result, hrun, rfl⟩ := Session.Yields.of_map hstart
  cases heq
  exact ⟨result, hrun, rfl, rfl⟩

theorem snmp_start_yields {m : Discovery} {d : SnmpDefinition} (hm : m.definition = some d)
    (h : (snmp m).start.Yields acts (outcome, next)) :
    ∃ result, (d.scan m.hosts).run.Yields acts result ∧ outcome = (m.after result).1 ∧
      next = snmp (m.after result).2 := by
  obtain ⟨started, hstart, heq⟩ := Session.Yields.of_map h
  rw [Discovery.start_eq hm] at hstart
  obtain ⟨result, hrun, rfl⟩ := Session.Yields.of_map hstart
  cases heq
  exact ⟨result, hrun, rfl, rfl⟩

end Measurement

/-! ## Prepared measurements -/

namespace Measurement

/-- The measurements that have been prepared for a definition, and since then only started, with
whatever outcome, and stopped. -/
inductive PreparedFor (ports : DrawnPorts) (definition : Definition) : Measurement → Prop where
  | prepare {measurement fresh : Measurement}
      (h : measurement.prepare ports definition = .ok fresh) : PreparedFor ports definition fresh
  | start {measurement next : Measurement} {acts : List Act}
      {outcome : Except MeasurementError Unit}
      (hm : PreparedFor ports definition measurement)
      (h : measurement.start.Yields acts (outcome, next)) : PreparedFor ports definition next
  | stop {measurement next : Measurement} {acts : List Act} {answer : Bool}
      (hm : PreparedFor ports definition measurement)
      (h : measurement.stop.Yields acts (answer, next)) : PreparedFor ports definition next

/-- The measurement has what the preparation for the definition accepts. -/
inductive IsSetFor (ports : DrawnPorts) : Definition → Measurement → Prop where
  | ping {d accepted : PingDefinition} {m : Ping} (h : d.prepared = .ok accepted)
      (hm : m.definition = some accepted) : IsSetFor ports (.udpPing d) (.ping m)
  | traceroute {d accepted : TracerouteDefinition} {m : Traceroute}
      (h : d.prepared ports = .ok accepted) (hm : m.definition = some accepted) :
      IsSetFor ports (.traceroute d) (.traceroute m)
  | snmp {d : SnmpDefinition} {m : Discovery} (h : d.prepared = .ok m.hosts)
      (hm : m.definition = some d) : IsSetFor ports (.snmp d) (.snmp m)

variable {ports : DrawnPorts} {definition : Definition} {measurement next : Measurement}
  {acts : List Act}

theorem isSetFor_of_prepare (h : measurement.prepare ports definition = .ok next) :
    IsSetFor ports definition next := by
  unfold prepare at h
  split at h
  · obtain ⟨m, hm, hnext⟩ := exists_of_map_eq_ok h
    obtain ⟨accepted, haccepted, hfresh⟩ := exists_of_bind_eq_ok hm
    cases hfresh
    cases hnext
    exact .ping haccepted rfl
  · obtain ⟨m, hm, hnext⟩ := exists_of_map_eq_ok h
    obtain ⟨accepted, haccepted, hfresh⟩ := exists_of_bind_eq_ok hm
    cases hfresh
    cases hnext
    exact .traceroute haccepted rfl
  · obtain ⟨m, hm, hnext⟩ := exists_of_map_eq_ok h
    obtain ⟨hosts, haccepted, hfresh⟩ := exists_of_bind_eq_ok hm
    cases hfresh
    cases hnext
    exact .snmp haccepted rfl
  · cases h

theorem IsSetFor.start {outcome : Except MeasurementError Unit}
    (hset : IsSetFor ports definition measurement)
    (h : measurement.start.Yields acts (outcome, next)) : IsSetFor ports definition next := by
  cases hset with
  | ping haccepted hm =>
    obtain ⟨result, -, -, rfl⟩ := ping_start_yields hm h
    exact .ping haccepted (by rw [Ping.definition_after, hm])
  | traceroute haccepted hm =>
    obtain ⟨result, -, -, rfl⟩ := traceroute_start_yields hm h
    exact .traceroute haccepted (by rw [Traceroute.definition_after, hm])
  | snmp haccepted hm =>
    obtain ⟨result, -, -, rfl⟩ := snmp_start_yields hm h
    exact .snmp (by rw [Discovery.hosts_after, haccepted]) (by rw [Discovery.definition_after, hm])

theorem IsSetFor.stop {answer : Bool} (hset : IsSetFor ports definition measurement)
    (h : measurement.stop.Yields acts (answer, next)) : IsSetFor ports definition next := by
  cases hset with
  | ping haccepted hm =>
    obtain ⟨stopped, hstop, heq⟩ := Session.Yields.of_map h
    obtain ⟨-, rfl⟩ := hstop.of_cancel_done
    cases heq
    exact .ping haccepted hm
  | traceroute haccepted hm =>
    obtain ⟨stopped, hstop, heq⟩ := Session.Yields.of_map h
    obtain ⟨-, rfl⟩ := hstop.of_cancel_done
    cases heq
    exact .traceroute haccepted hm
  | snmp haccepted hm =>
    obtain ⟨stopped, hstop, heq⟩ := Session.Yields.of_map h
    obtain ⟨-, rfl⟩ := hstop.of_cancel_done
    cases heq
    exact .snmp haccepted hm

/-- Runs and stops leave what the preparation accepted as it is. -/
theorem PreparedFor.isSetFor (h : PreparedFor ports definition measurement) :
    IsSetFor ports definition measurement := by
  induction h with
  | prepare h => exact isSetFor_of_prepare h
  | start _ h ih => exact ih.start h
  | stop _ h ih => exact ih.stop h

end Measurement

end ProbeAgent
