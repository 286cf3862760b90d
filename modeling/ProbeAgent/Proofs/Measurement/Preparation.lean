import ProbeAgent.Measurement.Preparation
import ProbeAgent.Proofs.Measurement.Discard

/-!
# Preparations

All checks of a preparation come before the first field is set.  So a preparation that is refused
leaves the measurement as it was, whatever it has been prepared for, run and stopped before, and after
one that is accepted nothing is left of that (`Measurement.prepareInPlace_all_or_nothing`).
-/

namespace ProbeAgent

/-! ## Definitions that are accepted -/

/-- There is a host, and at least one probe. -/
def HasTarget (host : String) (count : UInt32) : Prop :=
  Text.trim host.toList ≠ [] ∧ count ≠ 0

/-- The definitions that measurements of their method accept. -/
def Definition.IsRunnable : Definition → Prop
  | udpPing d => HasTarget d.host d.count
  | traceroute d => d.pingType = .udp ∧ HasTarget d.host d.count
  | snmp d => (d.version = 1 ∨ d.version = 2) ∧ d.communities ≠ [] ∧ d.retries ≠ 0 ∧
      ∃ hosts, Snmp.parseHosts d.hostAddresses = .ok hosts

theorem PingDefinition.checkTarget_eq_ok_iff {host : String} {count : UInt32} :
    checkTarget host count = .ok () ↔ HasTarget host count := by
  constructor
  · intro h
    obtain ⟨hhost, hcount⟩ := checkTarget_eq_ok h
    exact ⟨by simpa using hhost, hcount⟩
  · rintro ⟨hhost, hcount⟩
    rw [checkTarget, if_neg (by simpa using hhost), if_neg hcount]
    rfl

theorem PingDefinition.exists_prepared_iff (d : PingDefinition) :
    (∃ accepted, d.prepared = .ok accepted) ↔ HasTarget d.host d.count := by
  rw [← checkTarget_eq_ok_iff, prepared]
  cases checkTarget d.host d.count with
  | error e => exact iff_of_false nofun nofun
  | ok _ => exact iff_of_true ⟨_, rfl⟩ rfl

namespace TracerouteDefinition

theorem prepared_eq_map (d : TracerouteDefinition) (ports : DrawnPorts) :
    d.prepared ports = (fun _ => d.withPorts ports) <$> d.check := by
  unfold prepared check
  by_cases hudp : d.pingType = .udp
  · rw [if_pos hudp, if_pos hudp]
    cases PingDefinition.checkTarget d.host d.count <;> rfl
  · rw [if_neg hudp, if_neg hudp]
    rfl

theorem check_eq_ok_iff (d : TracerouteDefinition) :
    d.check = .ok () ↔ d.pingType = .udp ∧ HasTarget d.host d.count := by
  rw [← PingDefinition.checkTarget_eq_ok_iff, check]
  by_cases hudp : d.pingType = .udp
  · rw [if_pos hudp]
    exact (and_iff_right hudp).symm
  · rw [if_neg hudp]
    exact iff_of_false nofun fun h => hudp h.1

theorem exists_prepared_iff (d : TracerouteDefinition) (ports : DrawnPorts) :
    (∃ accepted, d.prepared ports = .ok accepted) ↔
      d.pingType = .udp ∧ HasTarget d.host d.count := by
  rw [← check_eq_ok_iff, prepared_eq_map]
  cases d.check with
  | error e => exact iff_of_false nofun nofun
  | ok _ => exact iff_of_true ⟨_, rfl⟩ rfl

end TracerouteDefinition

theorem SnmpDefinition.exists_prepared_iff (d : SnmpDefinition) :
    (∃ hosts, d.prepared = .ok hosts) ↔ (Definition.snmp d).IsRunnable := by
  constructor
  · rintro ⟨hosts, h⟩
    obtain ⟨hcommunities, hretries, hparse⟩ := parseHosts_of_prepared h
    refine ⟨?_, hcommunities, hretries, hosts, hparse⟩
    by_contra hversion
    rw [prepared, if_neg hversion] at h
    cases h
  · rintro ⟨hversion, hcommunities, hretries, hosts, hparse⟩
    refine ⟨hosts, ?_⟩
    rw [prepared, if_pos hversion, if_neg (by simpa using hcommunities), if_neg hretries, hparse]
    rfl

/-! ## Single preparations -/

theorem Ping.run_prepareInPlace (ping : Ping) (d : PingDefinition) :
    (prepareInPlace d).run.run ping = .done (match d.prepared with
      | .error e => (.error e, ping)
      | .ok accepted => (.ok (), ⟨some accepted, .unknown, []⟩)) := by
  unfold prepareInPlace
  cases d.prepared <;> rfl

/-- Ports are drawn once the definition has been checked. -/
theorem Traceroute.run_prepareInPlace (route : Traceroute) (d : TracerouteDefinition) :
    (prepareInPlace d).run.run route = match d.check with
      | .error e => .done (.error e, route)
      | .ok _ => .drawPorts fun ports =>
        .done (.ok (), ⟨some (d.withPorts ports), .unknown, [], false⟩) := by
  unfold prepareInPlace
  cases d.check <;> rfl

theorem Discovery.run_prepareInPlace (discovery : Discovery) (d : SnmpDefinition) :
    (prepareInPlace d).run.run discovery = .done (match d.prepared with
      | .error e => (.error e, discovery)
      | .ok hosts => (.ok (), ⟨some d, hosts, .unknown, []⟩)) := by
  unfold prepareInPlace
  cases d.prepared <;> rfl

namespace Measurement

variable {measurement next : Measurement} {definition : Definition} {ports : DrawnPorts}
  {acts : List Act} {outcome : Except MeasurementError Unit}

/-- What a preparation in place comes to is what `prepare` says, with the ports that were drawn. -/
theorem prepareInPlace_yields
    (h : (measurement.prepareInPlace definition).Yields acts (outcome, next)) :
    (∃ e, acts = [] ∧ outcome = .error e ∧ next = measurement ∧
      ∀ ports, measurement.prepare ports definition = .error e) ∨
    ∃ ports, (acts = [] ∨ acts = [.drawPorts ports]) ∧ outcome = .ok () ∧
      measurement.prepare ports definition = .ok next := by
  unfold prepareInPlace at h
  split at h
  · rename_i m d
    obtain ⟨ended, hended, heq⟩ := h.of_map
    rw [Ping.run_prepareInPlace] at hended
    obtain ⟨rfl, rfl⟩ := hended.of_done
    cases hprepared : d.prepared with
    | error e =>
      rw [hprepared] at heq
      cases heq
      exact .inl ⟨e, rfl, rfl, rfl, fun ports => by simp [prepare, Ping.prepare, hprepared]⟩
    | ok accepted =>
      rw [hprepared] at heq
      cases heq
      exact .inr ⟨.ofDraws 0 0, .inl rfl, rfl, by simp [prepare, Ping.prepare, hprepared]⟩
  · rename_i m d
    obtain ⟨ended, hended, heq⟩ := h.of_map
    rw [Traceroute.run_prepareInPlace] at hended
    cases hcheck : d.check with
    | error e =>
      rw [hcheck] at hended
      obtain ⟨rfl, rfl⟩ := hended.of_done
      cases heq
      refine .inl ⟨e, rfl, rfl, rfl, fun ports => ?_⟩
      simp [prepare, Traceroute.prepare, TracerouteDefinition.prepared_eq_map, hcheck]
    | ok _ =>
      rw [hcheck] at hended
      cases hended with
      | act hdoes hrest =>
        cases hdoes with
        | drawPorts ports =>
          obtain ⟨rfl, rfl⟩ := hrest.of_done
          cases heq
          refine .inr ⟨ports, .inr rfl, rfl, ?_⟩
          simp [prepare, Traceroute.prepare, TracerouteDefinition.prepared_eq_map, hcheck]
  · rename_i m d
    obtain ⟨ended, hended, heq⟩ := h.of_map
    rw [Discovery.run_prepareInPlace] at hended
    obtain ⟨rfl, rfl⟩ := hended.of_done
    cases hprepared : d.prepared with
    | error e =>
      rw [hprepared] at heq
      cases heq
      exact .inl ⟨e, rfl, rfl, rfl, fun ports => by simp [prepare, Discovery.prepare, hprepared]⟩
    | ok hosts =>
      rw [hprepared] at heq
      cases heq
      exact .inr ⟨.ofDraws 0 0, .inl rfl, rfl, by simp [prepare, Discovery.prepare, hprepared]⟩
  · obtain ⟨rfl, heq⟩ := h.of_done
    cases heq
    refine .inl ⟨_, rfl, rfl, rfl, fun ports => ?_⟩
    cases measurement <;> cases definition <;> first | rfl | simp_all

/-! ## All preparations -/

theorem prepare_congr {other : Measurement} (h : measurement.method = other.method)
    (ports : DrawnPorts) (definition : Definition) :
    measurement.prepare ports definition = other.prepare ports definition := by
  cases measurement <;> cases other <;> first | contradiction | (cases definition <;> rfl)

theorem exists_prepare_iff (measurement : Measurement) (definition : Definition)
    (ports : DrawnPorts) : (∃ next, measurement.prepare ports definition = .ok next) ↔
      measurement.method = definition.method ∧ definition.IsRunnable := by
  cases definition with
  | udpPing d =>
    have haccepted := d.exists_prepared_iff
    cases measurement <;> cases hprepared : d.prepared <;>
      simp_all [prepare, Ping.prepare, method, Definition.method, Definition.IsRunnable]
  | traceroute d =>
    have haccepted := d.exists_prepared_iff ports
    cases measurement <;> cases hprepared : d.prepared ports <;>
      simp_all [prepare, Traceroute.prepare, method, Definition.method, Definition.IsRunnable]
  | snmp d =>
    have haccepted := d.exists_prepared_iff
    cases measurement <;> cases hprepared : d.prepared <;>
      simp_all [prepare, Discovery.prepare, method, Definition.method]

/-- A preparation opens no socket, nor does anything else but draw ports.  It is accepted iff the
definition is one of the method and can be run.  If it is refused, the measurement is what it was
before, with all that it had been prepared for and had gathered.  If it is accepted, there is no
result and nothing that was gathered, and any other measurement of the method, such as one that has
never been prepared, is the same after the same preparation. -/
theorem prepareInPlace_all_or_nothing
    (h : (measurement.prepareInPlace definition).Yields acts (outcome, next)) :
    (∀ act ∈ acts, ∃ ports, act = .drawPorts ports) ∧
      (outcome = .ok () ↔ measurement.method = definition.method ∧ definition.IsRunnable) ∧
      (outcome ≠ .ok () → next = measurement) ∧
      (outcome = .ok () → next.status = .unknown ∧ next.result = none ∧ next.HoldsNothing ∧
        ∃ ports, ∀ other : Measurement, other.method = measurement.method →
          other.prepare ports definition = .ok next) := by
  rcases prepareInPlace_yields h with ⟨e, rfl, rfl, rfl, hrefused⟩ | ⟨ports, hacts, rfl, haccepted⟩
  · refine ⟨by simp, ?_, fun _ => rfl, nofun⟩
    rw [← exists_prepare_iff _ _ (.ofDraws 0 0), hrefused]
    exact iff_of_false nofun nofun
  · refine ⟨?_, ?_, fun hne => absurd rfl hne, fun _ => ?_⟩
    · rcases hacts with rfl | rfl
      · simp
      · simp
    · rw [← exists_prepare_iff _ _ ports]
      exact iff_of_true rfl ⟨next, haccepted⟩
    · obtain ⟨hnothing, hstatus⟩ := holdsNothing_of_prepare haccepted
      have hnone : next.result = none := by
        rw [← Option.not_isSome_iff_eq_none, isSome_result_iff, hstatus]
        exact nofun
      refine ⟨hstatus, hnone, hnothing, ports, fun other hmethod => ?_⟩
      rw [prepare_congr hmethod, haccepted]

/-- A ping with a result. -/
def answeredPing : Measurement := onePing .finished [⟨some 100, some 160, none, .udpResponse, none⟩]

/-- A definition without a host leaves the result as it is, and one with a host drops it. -/
theorem answeredPing_prepared_again :
    ∃ kept fresh,
      (answeredPing.prepareInPlace (.udpPing (.ofHost " "))).Yields []
        (.error (.config "host must not be empty"), kept) ∧
      kept = answeredPing ∧ kept.result.isSome = true ∧
      (kept.prepareInPlace (.udpPing (.ofHost "192.0.2.1"))).Yields [] (.ok (), fresh) ∧
      fresh.result = none := by
  have hrefused : (answeredPing.prepareInPlace (.udpPing (.ofHost " "))).Yields []
      (.error (.config "host must not be empty"), answeredPing) := .done
  have haccepted : (answeredPing.prepareInPlace (.udpPing (.ofHost "192.0.2.1"))).Yields []
      (.ok (), freshPing) := .done
  obtain ⟨-, -, hkept, -⟩ := prepareInPlace_all_or_nothing hrefused
  obtain ⟨-, -, -, hfresh⟩ := prepareInPlace_all_or_nothing haccepted
  exact ⟨_, _, hrefused, hkept nofun, rfl, haccepted, (hfresh rfl).2.1⟩

end Measurement

end ProbeAgent
