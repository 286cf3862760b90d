import ProbeAgent.Measurement.Registry
import ProbeAgent.Proofs.Measurement.Run

/-!
# Cancellation of runs

Runs ask from time to time whether they have been cancelled.  Every run of a measurement ends as
cancelled exactly if one of these questions was answered so: it heeds the first such answer, and
nothing else ends it that way.  A run that does not ask any more, once it is cancelled, ends like
any other.
-/

namespace ProbeAgent

/-- The acts of a run in which it was told that it has been cancelled. -/
def WasTold (acts : List Act) : Prop := .isCancelled true ∈ acts

theorem not_wasTold_nil : ¬ WasTold [] := List.not_mem_nil

theorem wasTold_append {first second : List Act} :
    WasTold (first ++ second) ↔ WasTold first ∨ WasTold second := List.mem_append

/-- A session that does not ask whether it has been cancelled. -/
def Session.Unasking {α : Type} (session : Session α) : Prop :=
  ∀ acts a, session.Yields acts a → ¬ WasTold acts

namespace Session

variable {α : Type}

theorem unasking_send (payload : Text.Bytes) : (send payload done).Unasking := by
  intro acts a hyields
  cases yields_send hyields
  simp [WasTold]

theorem unasking_receive : (receive done).Unasking := by
  intro acts a hyields
  cases yields_receive hyields
  simp [WasTold]

theorem unasking_sleep (millis : UInt64) : (sleep millis (done ())).Unasking := by
  intro acts a hyields
  cases yields_sleep hyields
  simp [WasTold]

theorem unasking_drawRequestId : (drawRequestId done).Unasking := by
  intro acts a hyields
  cases yields_drawRequestId hyields
  simp [WasTold]

theorem unasking_drawPorts : (drawPorts done).Unasking := by
  intro acts a hyields
  cases yields_drawPorts hyields
  simp [WasTold]

theorem unasking_looks (timeout : UInt64) : (Run.looks timeout).Unasking := by
  intro acts a hyields
  rcases yields_looks hyields with rfl | rfl
  · exact not_wasTold_nil
  · simp [WasTold]

end Session

namespace Run

variable {α β : Type}

/-- Whichever way the run goes, it ends as cancelled if and only if it was told so. -/
def Heeds (run : Run α) : Prop :=
  ∀ acts result, Session.Yields (ExceptT.run run) acts result →
    (result = .error .cancelled ↔ WasTold acts)

/-! ## The parts of runs -/

theorem heeds_done {result : Except MeasurementError α} (h : result ≠ .error .cancelled) :
    Heeds (ExceptT.mk (Session.done result)) := by
  intro acts result' hyields
  obtain ⟨rfl, rfl⟩ := Session.Yields.of_done hyields
  exact ⟨fun heq => absurd heq h, fun htold => absurd htold not_wasTold_nil⟩

theorem heeds_pure (a : α) : Heeds (pure a) := heeds_done fun h => by cases h

theorem heeds_liftExcept {result : Except MeasurementError α} (h : result ≠ .error .cancelled) :
    Heeds (liftM result) := heeds_done h

theorem Heeds.bind {run : Run α} {f : α → Run β} (h : Heeds run) (hf : ∀ a, Heeds (f a)) :
    Heeds (run >>= f) := by
  intro acts result hyields
  rcases yields_bind hyields with ⟨e, hrun, rfl⟩ | ⟨first, a, second, hrun, hrest, rfl⟩
  · -- The rest is not run.
    rw [← h acts _ hrun]
    simp
  · rw [wasTold_append, ← h first _ hrun, ← hf a second result hrest]
    simp

theorem heeds_lift {session : Session α} (h : session.Unasking) :
    Heeds (liftM session : Run α) := by
  intro acts result hyields
  obtain ⟨a, hsession, rfl⟩ := yields_lift hyields
  exact ⟨fun heq => (by cases heq), fun htold => absurd htold (h acts a hsession)⟩

theorem heeds_checkCancelled : Heeds checkCancelled := by
  intro acts result hyields
  obtain ⟨answer, rfl, rfl⟩ := yields_checkCancelled hyields
  cases answer <;> simp [WasTold]

theorem heeds_pause (millis : UInt64) : Heeds (pause millis) := by
  unfold pause
  refine heeds_checkCancelled.bind fun _ => ?_
  split
  · exact heeds_pure ()
  · exact (heeds_lift (Session.unasking_sleep millis)).bind fun _ => heeds_checkCancelled

theorem heeds_looks (timeout : UInt64) : Heeds (liftM (looks timeout) : Run Nat) :=
  heeds_lift (Session.unasking_looks timeout)

theorem Heeds.withSocket {use : Run α} (h : Heeds use) (spec : SocketSpec)
    (refused : TransportError → α) : Heeds (withSocket spec refused use) := by
  intro acts result hyields
  rcases yields_withSocket hyields with ⟨e, rfl, rfl⟩ | ⟨inner, huse, rfl⟩
  · simp [WasTold]
  · -- Opening and closing the socket change nothing.
    rw [h inner result huse]
    simp [WasTold]

theorem heeds_await (decide : ReceiveEvent → Option α) (failed : IoError → α) (late : α)
    (left : Nat) : Heeds (await decide failed late left) := by
  induction left with
  | zero => exact heeds_checkCancelled.bind fun _ => heeds_pure late
  | succ left ih =>
    refine heeds_checkCancelled.bind fun _ =>
      (heeds_lift Session.unasking_receive).bind fun answer => ?_
    cases answer with
    | error e => exact heeds_pure (failed e)
    | ok event =>
      dsimp only
      cases event.bind decide with
      | some a => exact heeds_pure a
      | none => exact ih

end Run

/-! ## The measurements -/

open Run

/-- The errors of this check are about a definition: it is wrong, or not supported. -/
def OnlyRefuses {α : Type} (check : Except MeasurementError α) : Prop :=
  ∀ e, check = .error e → (∃ reason, e = .config reason) ∨ ∃ feature, e = .notImplemented feature

namespace OnlyRefuses

variable {α β : Type} {check : Except MeasurementError α}

theorem ok (a : α) : OnlyRefuses (.ok a) := nofun

theorem config (reason : String) : OnlyRefuses (.error (.config reason) : Except _ α) := by
  rintro e ⟨⟩
  exact .inl ⟨reason, rfl⟩

theorem notImplemented (feature : String) :
    OnlyRefuses (.error (.notImplemented feature) : Except _ α) := by
  rintro e ⟨⟩
  exact .inr ⟨feature, rfl⟩

theorem bind {next : α → Except MeasurementError β} (h : OnlyRefuses check)
    (hnext : ∀ a, OnlyRefuses (next a)) : OnlyRefuses (check >>= next) := by
  cases check with
  | error e => exact fun _ heq => h _ (by cases heq; rfl)
  | ok a => exact hnext a

theorem map {f : α → β} (h : OnlyRefuses check) : OnlyRefuses (f <$> check) := by
  cases check with
  | error e => exact fun _ heq => h _ (by cases heq; rfl)
  | ok a => exact ok (f a)

/-- It does not end a run as cancelled. -/
theorem ne_cancelled (h : OnlyRefuses check) : check ≠ .error .cancelled := by
  intro heq
  rcases h _ heq with ⟨reason, hreason⟩ | ⟨feature, hfeature⟩
  · cases hreason
  · cases hfeature

theorem ne_wrongDefinition (h : OnlyRefuses check) (expected found : Method) :
    check ≠ .error (.wrongDefinition expected found) := by
  intro heq
  rcases h _ heq with ⟨reason, hreason⟩ | ⟨feature, hfeature⟩
  · cases hreason
  · cases hfeature

end OnlyRefuses

theorem checkTarget_onlyRefuses (host : String) (count : UInt32) :
    OnlyRefuses (PingDefinition.checkTarget host count) := by
  unfold PingDefinition.checkTarget
  split
  · exact .config _
  · split
    · exact .config _
    · exact .ok ()

namespace PingDefinition

theorem prepared_onlyRefuses (d : PingDefinition) : OnlyRefuses d.prepared :=
  (checkTarget_onlyRefuses _ _).bind fun _ => .ok _

theorem heeds_probeOnce (d : PingDefinition) : Heeds d.probeOnce := by
  refine heeds_checkCancelled.bind fun _ => Heeds.withSocket ?_ _ _
  refine (heeds_lift (Session.unasking_send d.payload)).bind fun answer => ?_
  cases answer with
  | error e => exact heeds_pure _
  | ok time => exact (heeds_looks _).bind fun left => heeds_await _ _ _ left

theorem heeds_probeAgain (d : PingDefinition) (left : Nat) : Heeds (d.probeAgain left) := by
  induction left with
  | zero => exact heeds_pure []
  | succ left ih =>
    exact (heeds_pause d.interval).bind fun _ => d.heeds_probeOnce.bind fun probe =>
      ih.bind fun rest => heeds_pure (probe :: rest)

theorem heeds_probes (d : PingDefinition) : Heeds d.probes := by
  unfold probes
  split
  · exact heeds_pure []
  · exact d.heeds_probeOnce.bind fun probe =>
      (d.heeds_probeAgain _).bind fun rest => heeds_pure (probe :: rest)

end PingDefinition

namespace TracerouteDefinition

theorem prepared_onlyRefuses (d : TracerouteDefinition) (ports : DrawnPorts) :
    OnlyRefuses (d.prepared ports) := by
  unfold prepared
  by_cases htype : d.pingType = .udp
  · rw [if_pos htype]
    exact (checkTarget_onlyRefuses _ _).bind fun _ => .ok _
  · rw [if_neg htype]
    exact .notImplemented _

theorem heeds_hop (d : TracerouteDefinition) (ttl : UInt8) : Heeds (d.hop ttl) :=
  (heeds_liftExcept (PingDefinition.prepared_onlyRefuses _).ne_cancelled).bind fun ping =>
    ping.heeds_probes.bind fun probes => heeds_pure (probes.map (Hop.mk ttl))

theorem heeds_hopsFrom (d : TracerouteDefinition) (ttl left : Nat) :
    Heeds (d.hopsFrom ttl left) := by
  induction left generalizing ttl with
  | zero => exact heeds_pure []
  | succ left ih =>
    refine (d.heeds_hop (.ofNat ttl)).bind fun hops => ?_
    split
    · exact heeds_pure hops
    · exact (ih (ttl + 1)).bind fun rest => heeds_pure (hops ++ rest)

end TracerouteDefinition

namespace SnmpDefinition

theorem prepared_onlyRefuses (d : SnmpDefinition) : OnlyRefuses d.prepared := by
  unfold prepared
  by_cases hversion : d.version = 1 ∨ d.version = 2
  · rw [if_pos hversion]
    dsimp only
    split
    · exact .config _
    · split
      · exact .config _
      · cases Snmp.parseHosts d.hostAddresses with
        | ok hosts => exact .ok hosts
        | error e => exact .config _
  · rw [if_neg hversion]
    exact .config _

theorem heeds_query (d : SnmpDefinition) (host : Ipv4) (community : String) :
    Heeds (d.query host community) := by
  refine Heeds.withSocket ?_ _ _
  refine (heeds_lift Session.unasking_drawRequestId).bind fun id =>
    (heeds_lift (Session.unasking_send _)).bind fun answer => ?_
  cases answer with
  | error e => exact heeds_pure none
  | ok sentAt => exact (heeds_looks _).bind fun left => heeds_await _ _ _ left

theorem heeds_queryUpTo (d : SnmpDefinition) (host : Ipv4) (community : String) (left : Nat) :
    Heeds (d.queryUpTo host community left) := by
  induction left with
  | zero => exact heeds_pure none
  | succ left ih =>
    refine (d.heeds_query host community).bind fun rtt => ?_
    cases rtt with
    | some rtt => exact heeds_pure (some rtt)
    | none => exact ih

theorem heeds_discover (d : SnmpDefinition) (host : Ipv4) (communities : List String) :
    Heeds (d.discover host communities) := by
  induction communities with
  | nil => exact heeds_pure none
  | cons community rest ih =>
    refine (d.heeds_queryUpTo host community _).bind fun rtt => ?_
    cases rtt with
    | some rtt => exact heeds_pure _
    | none => exact ih

theorem heeds_scanAgain (d : SnmpDefinition) (hosts : List Ipv4) : Heeds (d.scanAgain hosts) := by
  induction hosts with
  | nil => exact heeds_pure []
  | cons host rest ih =>
    exact (heeds_pause d.sendInterval).bind fun _ => (d.heeds_discover host _).bind fun device =>
      ih.bind fun devices => heeds_pure (device.toList ++ devices)

theorem heeds_scan (d : SnmpDefinition) (hosts : List Ipv4) : Heeds (d.scan hosts) := by
  cases hosts with
  | nil => exact heeds_pure []
  | cons host rest =>
    exact (d.heeds_discover host _).bind fun device =>
      (d.heeds_scanAgain rest).bind fun devices => heeds_pure (device.toList ++ devices)

end SnmpDefinition

/-! ## Whole measurements -/

/-- The start of a measurement fails as cancelled if and only if it was told so. -/
def Session.StartHeeds {α : Type} (session : Session (Except MeasurementError Unit × α)) : Prop :=
  ∀ acts started, session.Yields acts started →
    (started.1 = .error .cancelled ↔ WasTold acts)

theorem startHeeds_done {α : Type} {result : Except MeasurementError Unit} {a : α}
    (h : result ≠ .error .cancelled) : (Session.done (result, a)).StartHeeds := by
  intro acts started hyields
  obtain ⟨rfl, rfl⟩ := hyields.of_done
  exact ⟨fun heq => absurd heq h, fun htold => absurd htold not_wasTold_nil⟩

/-- A measurement keeps what a run gathered, or its error. -/
theorem Run.Heeds.startHeeds {α β : Type} {run : Run α} (h : Heeds run)
    {keep : Except MeasurementError α → Session (Except MeasurementError Unit × β)}
    (hok : ∀ a, ∃ b, keep (.ok a) = .done (.ok (), b))
    (herror : ∀ e, ∃ b, keep (.error e) = .done (.error e, b)) :
    (Session.bind (ExceptT.run run) keep).StartHeeds := by
  intro acts started hyields
  obtain ⟨first, outcome, second, hfirst, hsecond, rfl⟩ := hyields.of_bind
  rw [wasTold_append, ← h first outcome hfirst]
  cases outcome with
  | ok a =>
    obtain ⟨b, hb⟩ := hok a
    rw [hb] at hsecond
    obtain ⟨rfl, rfl⟩ := hsecond.of_done
    simp [not_wasTold_nil]
  | error e =>
    obtain ⟨b, hb⟩ := herror e
    rw [hb] at hsecond
    obtain ⟨rfl, rfl⟩ := hsecond.of_done
    simp [not_wasTold_nil]

theorem Session.StartHeeds.map {α β : Type}
    {session : Session (Except MeasurementError Unit × α)} (h : session.StartHeeds) (f : α → β) :
    ((fun (r, a) => (r, f a)) <$> session : Session (Except MeasurementError Unit × β)).StartHeeds := by
  intro acts started hyields
  obtain ⟨a, hsession, rfl⟩ := hyields.of_map
  exact h acts a hsession

theorem Ping.start_heeds (ping : Ping) : ping.start.StartHeeds := by
  unfold start
  cases ping.definition with
  | none => exact startHeeds_done fun h => by cases h
  | some d => exact d.heeds_probes.startHeeds (fun _ => ⟨_, rfl⟩) fun _ => ⟨_, rfl⟩

theorem Traceroute.start_heeds (route : Traceroute) : route.start.StartHeeds := by
  unfold start
  cases route.definition with
  | none => exact startHeeds_done fun h => by cases h
  | some d =>
    have hhops : Heeds d.hops := d.heeds_hopsFrom 1 maxHops
    exact hhops.startHeeds (fun _ => ⟨_, rfl⟩) fun _ => ⟨_, rfl⟩

theorem Discovery.start_heeds (discovery : Discovery) : discovery.start.StartHeeds := by
  unfold start
  cases discovery.definition with
  | none => exact startHeeds_done fun h => by cases h
  | some d => exact (d.heeds_scan _).startHeeds (fun _ => ⟨_, rfl⟩) fun _ => ⟨_, rfl⟩

namespace Measurement

theorem start_heeds (measurement : Measurement) : measurement.start.StartHeeds := by
  cases measurement with
  | ping m => exact m.start_heeds.map ping
  | traceroute m => exact m.start_heeds.map traceroute
  | snmp m => exact m.start_heeds.map snmp

/-- The definition of the method is refused for what is in it, or accepted. -/
theorem prepare_onlyRefuses {measurement : Measurement} {definition : Definition}
    (h : measurement.method = definition.method) (ports : DrawnPorts) :
    OnlyRefuses (measurement.prepare ports definition) := by
  cases measurement with
  | ping m =>
    cases definition with
    | udpPing d => exact (d.prepared_onlyRefuses.bind fun _ => .ok _).map
    | traceroute | snmp => contradiction
  | traceroute m =>
    cases definition with
    | traceroute d => exact ((d.prepared_onlyRefuses ports).bind fun _ => .ok _).map
    | udpPing | snmp => contradiction
  | snmp m =>
    cases definition with
    | snmp d => exact (d.prepared_onlyRefuses.bind fun _ => .ok _).map
    | udpPing | traceroute => contradiction

theorem prepare_of_other_method {measurement : Measurement} {definition : Definition}
    (h : measurement.method ≠ definition.method) (ports : DrawnPorts) :
    measurement.prepare ports definition =
      .error (.wrongDefinition measurement.method definition.method) := by
  cases measurement <;> cases definition <;> first | exact absurd rfl h | rfl

theorem prepare_ne_cancelled (measurement : Measurement) (ports : DrawnPorts)
    (definition : Definition) : measurement.prepare ports definition ≠ .error .cancelled := by
  by_cases h : measurement.method = definition.method
  · exact (prepare_onlyRefuses h ports).ne_cancelled
  · rw [prepare_of_other_method h]
    exact nofun

/-- The run of a measurement ends as cancelled if and only if it was told so. -/
theorem heeds_perform (measurement : Measurement) (definition : Definition) :
    Heeds (measurement.perform definition) := by
  refine (heeds_lift Session.unasking_drawPorts).bind fun ports =>
    (heeds_liftExcept (measurement.prepare_ne_cancelled ports definition)).bind fun prepared => ?_
  intro acts result hyields
  obtain ⟨first, outcome, second, hfirst, hsecond, rfl⟩ := Session.Yields.of_bind hyields
  obtain ⟨⟨started, finished⟩, hstart, rfl⟩ := Session.Yields.of_map hfirst
  rw [wasTold_append, ← prepared.start_heeds _ _ hstart]
  cases started with
  | ok _ =>
    obtain ⟨rfl, rfl⟩ := Session.Yields.of_done hsecond
    simp [not_wasTold_nil]
  | error e =>
    obtain ⟨rfl, rfl⟩ := Session.Yields.of_done hsecond
    simp [not_wasTold_nil]

end Measurement

end ProbeAgent
