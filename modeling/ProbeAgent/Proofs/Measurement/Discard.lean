import ProbeAgent.Proofs.Measurement.Outcome

/-!
# What a stop discards

A stop answers whether it dropped anything that was gathered.  A ping and a traceroute that got to
their end have gathered at least one probe, but a discovery may have found no devices: its result is
dropped, and the answer is that there was nothing to drop (`Reached.stop_discards`).
-/

namespace ProbeAgent.Measurement

/-- The measurements that have been prepared, started, with whatever outcome, and stopped, in any
order.  A preparation that is refused leaves a measurement as it was. -/
inductive Reached (method : Method) : Measurement → Prop where
  | unprepared : Reached method (unprepared method)
  | prepare {measurement next : Measurement} {ports : DrawnPorts} {definition : Definition}
      (hm : Reached method measurement)
      (h : measurement.prepare ports definition = .ok next) : Reached method next
  | start {measurement next : Measurement} {acts : List Act}
      {outcome : Except MeasurementError Unit} (hm : Reached method measurement)
      (h : measurement.start.Yields acts (outcome, next)) : Reached method next
  | stop {measurement next : Measurement} {acts : List Act} {answer : Bool}
      (hm : Reached method measurement)
      (h : measurement.stop.Yields acts (answer, next)) : Reached method next

/-- Whether a run has left probes, hops or devices. -/
def hasGathered : Measurement → Bool
  | ping m => !m.probes.isEmpty
  | traceroute m => !m.hops.isEmpty
  | snmp m => !m.devices.isEmpty

/-- What is left of a measurement that is stopped. -/
def discarded : Measurement → Measurement
  | ping m => ping { m with status := .unknown, probes := [] }
  | traceroute m => traceroute { m with status := .unknown, hops := [], endOfRoute := false }
  | snmp m => snmp { m with status := .unknown, devices := [] }

/-- A measurement that is not running: without a result there is nothing that a run has left, and
with one there is, unless it is that of a discovery. -/
structure AtRest (measurement : Measurement) : Prop where
  not_running : measurement.status ≠ .running
  empty : measurement.status ≠ .finished → measurement.HoldsNothing
  gathered : measurement.status = .finished → measurement.method ≠ .snmp →
    measurement.hasGathered = true

variable {method : Method} {measurement next : Measurement} {acts : List Act} {answer : Bool}
  {outcome : Except MeasurementError Unit} {ports : DrawnPorts} {definition : Definition}

/-! ## Stops -/

theorem stop_eq (measurement : Measurement) :
    measurement.stop =
      .cancel (.done (decide (measurement.status = .running ∨ measurement.hasGathered = true),
        measurement.discarded)) := by
  cases measurement <;> rfl

theorem eq_discarded_of_stop (h : measurement.stop.Yields acts (answer, next)) :
    next = measurement.discarded := by
  rw [stop_eq] at h
  obtain ⟨-, heq⟩ := h.of_cancel_done
  exact (Prod.ext_iff.1 heq).2

theorem holdsNothing_discarded (measurement : Measurement) : measurement.discarded.HoldsNothing := by
  cases measurement with
  | traceroute m => exact ⟨rfl, rfl⟩
  | ping m | snmp m => rfl

theorem result_discarded (measurement : Measurement) : measurement.discarded.result = none := by
  cases measurement <;> rfl

theorem status_discarded (measurement : Measurement) : measurement.discarded.status = .unknown := by
  cases measurement <;> rfl

theorem discarded_unprepared (method : Method) :
    (unprepared method).discarded = unprepared method := by
  cases method <;> rfl

/-! ## Results -/

theorem isSome_result_iff : measurement.result.isSome = true ↔ measurement.status = .finished := by
  cases measurement <;> simp [result, status, Ping.result, Traceroute.result, Discovery.result]

theorem HoldsNothing.hasGathered (h : measurement.HoldsNothing) :
    measurement.hasGathered = false := by
  cases measurement with
  | ping m =>
    have hprobes : m.probes = [] := h
    simp [Measurement.hasGathered, hprobes]
  | traceroute m =>
    have hhops : m.hops = [] := h.1
    simp [Measurement.hasGathered, hhops]
  | snmp m =>
    have hdevices : m.devices = [] := h
    simp [Measurement.hasGathered, hdevices]

/-- Only a discovery without devices has a result with nothing in it. -/
theorem hasGathered_eq_false_iff (hfinished : measurement.status = .finished)
    (h : measurement.method ≠ .snmp → measurement.hasGathered = true) :
    measurement.hasGathered = false ↔ measurement.result = some (.snmp ⟨[]⟩) := by
  cases measurement with
  | ping m =>
    rw [h nofun]
    have hresult : m.status = .finished := hfinished
    simp [result, Ping.result, hresult]
  | traceroute m =>
    rw [h nofun]
    have hresult : m.status = .finished := hfinished
    simp [result, Traceroute.result, hresult]
  | snmp m =>
    have hresult : m.status = .finished := hfinished
    simp [hasGathered, result, Discovery.result, hresult]

/-- A whole result of a ping or a traceroute has a probe. -/
theorem IsComplete.hasGathered {report : RunResult}
    (h : IsComplete ports acts definition measurement report)
    (hresult : measurement.result = some report) (hmethod : measurement.method ≠ .snmp) :
    measurement.hasGathered = true := by
  cases h with
  | @ping d accepted m haccepted hcount hacts =>
    obtain ⟨hcheck, -⟩ := PingDefinition.prepared_eq_ok haccepted
    obtain ⟨-, hpos⟩ := PingDefinition.checkTarget_eq_ok hcheck
    have hne : m.probes ≠ [] := by
      rintro hnil
      rw [hnil] at hcount
      exact hpos (UInt32.toNat_inj.1 hcount.symm)
    simpa [Measurement.hasGathered] using hne
  | @traceroute d m n report hroute =>
    have hreport : m.result.map RunResult.traceroute = some (.traceroute report) := hresult
    have hne : m.hops ≠ [] := by
      intro hnil
      unfold Traceroute.result at hreport
      split at hreport
      · rw [hnil] at hreport
        cases hreport
        have hlength := hroute.length_results
        have hpos := hroute.pos
        rw [← hlength] at hpos
        contradiction
      · cases hreport
    simpa [Measurement.hasGathered] using hne
  | snmp hparse hscan => exact absurd rfl hmethod

/-! ## Between runs -/

theorem HoldsNothing.atRest (h : measurement.HoldsNothing) (hstatus : measurement.status = .unknown) :
    measurement.AtRest where
  not_running := by simp [hstatus]
  empty _ := h
  gathered hfinished := by simp [hstatus] at hfinished

theorem atRest_discarded (measurement : Measurement) : measurement.discarded.AtRest :=
  (holdsNothing_discarded measurement).atRest (status_discarded measurement)

theorem atRest_unprepared (method : Method) : (unprepared method).AtRest :=
  discarded_unprepared method ▸ atRest_discarded _

theorem holdsNothing_of_prepare (h : measurement.prepare ports definition = .ok next) :
    next.HoldsNothing ∧ next.status = .unknown := by
  unfold prepare at h
  split at h
  · obtain ⟨m, hm, rfl⟩ := exists_of_map_eq_ok h
    obtain ⟨accepted, -, hnext⟩ := exists_of_bind_eq_ok hm
    cases hnext
    exact ⟨rfl, rfl⟩
  · obtain ⟨m, hm, rfl⟩ := exists_of_map_eq_ok h
    obtain ⟨accepted, -, hnext⟩ := exists_of_bind_eq_ok hm
    cases hnext
    exact ⟨⟨rfl, rfl⟩, rfl⟩
  · obtain ⟨m, hm, rfl⟩ := exists_of_map_eq_ok h
    obtain ⟨hosts, -, hnext⟩ := exists_of_bind_eq_ok hm
    cases hnext
    exact ⟨rfl, rfl⟩
  · cases h

theorem atRest_of_prepare (h : measurement.prepare ports definition = .ok next) : next.AtRest :=
  (holdsNothing_of_prepare h).1.atRest (holdsNothing_of_prepare h).2

theorem Finished.atRest (h : Finished ports definition acts outcome next) : next.AtRest where
  not_running := by simp [h.status_eq]
  empty hstatus := absurd h.status_eq hstatus
  gathered _ hmethod := by
    obtain ⟨report, hresult, hcomplete⟩ := h.complete
    exact hcomplete.hasGathered hresult hmethod

theorem IsSetFor.atRest_start (hset : IsSetFor ports definition measurement)
    (h : measurement.start.Yields acts (outcome, next)) : next.AtRest := by
  have hends : (¬ WasTold acts ∧ Finished ports definition acts outcome next) ∨
      (WasTold acts ∧ Cancelled outcome next) := by
    cases hset with
    | @ping _ _ m haccepted hm =>
      obtain ⟨run, hrun, rfl, rfl⟩ := ping_start_yields hm h
      exact ping_start haccepted m hrun
    | @traceroute _ _ m haccepted hm =>
      obtain ⟨run, hrun, rfl, rfl⟩ := traceroute_start_yields hm h
      exact traceroute_start haccepted m hrun
    | snmp haccepted hm =>
      obtain ⟨run, hrun, rfl, rfl⟩ := snmp_start_yields hm h
      exact snmp_start haccepted hrun
  rcases hends with ⟨-, hfinished⟩ | ⟨-, hcancelled⟩
  · exact hfinished.atRest
  · exact hcancelled.nothing.atRest hcancelled.status_eq

/-- Without a definition there is nothing to start. -/
theorem eq_of_start_unprepared (h : (unprepared method).start.Yields acts (outcome, next)) :
    next = unprepared method := by
  cases method with
  | udpPing =>
    obtain ⟨started, hstart, heq⟩ := Session.Yields.of_map h
    obtain ⟨-, rfl⟩ := hstart.of_done
    cases heq
    rfl
  | traceroute =>
    obtain ⟨started, hstart, heq⟩ := Session.Yields.of_map h
    obtain ⟨-, rfl⟩ := hstart.of_done
    cases heq
    rfl
  | snmp =>
    obtain ⟨started, hstart, heq⟩ := Session.Yields.of_map h
    obtain ⟨-, rfl⟩ := hstart.of_done
    cases heq
    rfl

theorem Reached.unprepared_or_isSetFor (h : Reached method measurement) :
    measurement = Measurement.unprepared method ∨
      ∃ ports definition, IsSetFor ports definition measurement := by
  induction h with
  | unprepared => exact .inl rfl
  | prepare _ h _ => exact .inr ⟨_, _, isSetFor_of_prepare h⟩
  | start _ h ih =>
    rcases ih with rfl | ⟨ports, definition, hset⟩
    · exact .inl (eq_of_start_unprepared h)
    · exact .inr ⟨ports, definition, hset.start h⟩
  | stop _ h ih =>
    rcases ih with rfl | ⟨ports, definition, hset⟩
    · exact .inl ((eq_discarded_of_stop h).trans (discarded_unprepared method))
    · exact .inr ⟨ports, definition, hset.stop h⟩

theorem Reached.atRest (h : Reached method measurement) : measurement.AtRest := by
  cases h with
  | unprepared => exact atRest_unprepared method
  | prepare _ h => exact atRest_of_prepare h
  | start hm h =>
    rcases hm.unprepared_or_isSetFor with rfl | ⟨ports, definition, hset⟩
    · rw [eq_of_start_unprepared h]
      exact atRest_unprepared method
    · exact hset.atRest_start h
  | stop _ h =>
    rw [eq_discarded_of_stop h]
    exact atRest_discarded _

/-- A stop always ends, and leaves no result and nothing that a run has gathered.  Its answer is
whether there was a result, with one exception: that of a discovery that has found no devices. -/
theorem Reached.stop_discards (h : Reached method measurement) :
    ∃ answer next, measurement.stop = .cancel (.done (answer, next)) ∧
      (answer = true ↔
        measurement.result.isSome = true ∧ measurement.result ≠ some (.snmp ⟨[]⟩)) ∧
      next.result = none ∧ next.HoldsNothing := by
  refine ⟨_, _, measurement.stop_eq, ?_, result_discarded _, holdsNothing_discarded _⟩
  have hrest := h.atRest
  rw [decide_eq_true_eq, or_iff_right hrest.not_running, isSome_result_iff]
  by_cases hfinished : measurement.status = .finished
  · have hnothing := hasGathered_eq_false_iff hfinished (hrest.gathered hfinished)
    rw [ne_eq, ← hnothing, and_iff_right hfinished, Bool.not_eq_false]
  · have hnone := (hrest.empty hfinished).hasGathered
    simp [hnone, hfinished]

/-- The result of a ping is dropped, and the answer says so. -/
theorem onePing_stopped :
    Reached .udpPing (onePing .finished [⟨some 100, some 160, none, .udpResponse, none⟩]) ∧
      ∃ answer next,
        (onePing .finished [⟨some 100, some 160, none, .udpResponse, none⟩]).stop =
          .cancel (.done (answer, next)) ∧ answer = true ∧ next.result = none := by
  have hprepared : (unprepared .udpPing).prepare (.ofDraws 0 0)
      (.udpPing { PingDefinition.ofHost "192.0.2.1" with count := 1 }) =
        .ok (onePing .unknown []) := rfl
  have hstart : (onePing .unknown []).start.Yields onePingAnswered
      (.ok (), onePing .finished [⟨some 100, some 160, none, .udpResponse, none⟩]) :=
    .act (.isCancelled _) <| .act (.openSocket _) <| .act (.send _) <| .act (.looks _) <|
    .act (.isCancelled _) <| .act (.receive _) <| .act .closeSocket .done
  have hreached := (Reached.unprepared.prepare hprepared).start hstart
  obtain ⟨answer, next, hstop, hanswer, hnone, -⟩ := hreached.stop_discards
  exact ⟨hreached, answer, next, hstop, hanswer.2 ⟨rfl, nofun⟩, hnone⟩

/-- The single host of a discovery has no agent. -/
def singleHostRefused : List Act := [
  .openSocket ⟨"10.0.0.1", 0, 161, 0⟩ (.ok ()), .drawRequestId 7,
  .send ((SnmpDefinition.ofHosts "10.0.0.1").request "public" 7).encode (.ok 100), .looks 1000 1,
  .isCancelled false, .receive (.ok (some (.icmp 3 3 none 105))), .closeSocket]

/-- The discovery ends with a result, which a stop drops, answering that there was nothing. -/
theorem singleHost_stopped :
    Reached .snmp (singleHost .finished) ∧ (singleHost .finished).result = some (.snmp ⟨[]⟩) ∧
      (singleHost .finished).stop = .cancel (.done (false, singleHost .unknown)) ∧
      (singleHost .unknown).result = none := by
  have hprepared : (unprepared .snmp).prepare (.ofDraws 0 0) (.snmp (.ofHosts "10.0.0.1")) =
      .ok (singleHost .unknown) := rfl
  have hstart : (singleHost .unknown).start.Yields singleHostRefused
      (.ok (), singleHost .finished) :=
    .act (.openSocket _) <| .act (.drawRequestId _) <| .act (.send _) <| .act (.looks _) <|
    .act (.isCancelled _) <| .act (.receive _) <| .act .closeSocket .done
  exact ⟨(Reached.unprepared.prepare hprepared).start hstart, rfl, rfl, rfl⟩

end ProbeAgent.Measurement
