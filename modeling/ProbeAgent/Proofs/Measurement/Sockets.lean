import ProbeAgent.Proofs.Measurement.Lifecycle
import ProbeAgent.Proofs.Measurement.Run
import ProbeAgent.Proofs.Simulation.Bench

/-!
# The sockets of a measurement

Every run keeps to `SocketUse`, wherever it is cancelled and whatever fails: one socket at a time,
sent on at most once, and closed before the next one is opened.  So on every scripted network a start
leaves no socket open (`Measurement.start_closes_sockets`).
-/

namespace ProbeAgent

open ProbeAgent.Text (Bytes)

variable {α β : Type} {use mid use' : SocketUse}

namespace Session

/-- However the session goes, it may be started with such a socket and leaves it so. -/
def Takes (session : Session α) (use use' : SocketUse) : Prop :=
  ∀ acts a, session.Yields acts a → use.afterAll acts = some use'

theorem takes_done (a : α) : (done a).Takes use use := by
  intro acts _ h
  obtain ⟨rfl, -⟩ := h.of_done
  rfl

theorem Takes.bind {session : Session α} {f : α → Session β} (h : session.Takes use mid)
    (hf : ∀ a, (f a).Takes mid use') : (session.bind f).Takes use use' := by
  intro acts b hyields
  obtain ⟨first, a, second, hfirst, hsecond, rfl⟩ := Yields.of_bind hyields
  rw [SocketUse.afterAll_append, h _ _ hfirst]
  exact hf a _ _ hsecond

theorem Takes.map {session : Session α} (h : session.Takes use use') (f : α → β) :
    (f <$> session).Takes use use' :=
  h.bind fun a => takes_done (f a)

theorem takes_send (payload : Bytes) : (send payload done).Takes .fresh .spent := by
  intro acts answer h
  rw [yields_send h]
  rfl

theorem takes_drawRequestId : (drawRequestId done).Takes use use := by
  intro acts id h
  rw [yields_drawRequestId h, SocketUse.afterAll_cons, SocketUse.after_aside rfl]
  rfl

theorem takes_sleep (millis : UInt64) : (sleep millis (done ())).Takes use use := by
  intro acts _ h
  rw [yields_sleep h, SocketUse.afterAll_cons, SocketUse.after_aside rfl]
  rfl

theorem takes_looks (timeout : UInt64) : (Run.looks timeout).Takes use use := by
  intro acts left h
  rcases yields_looks h with rfl | rfl
  · rfl
  · rw [SocketUse.afterAll_cons, SocketUse.after_aside rfl]
    rfl

theorem takes_receive : (receive done).Takes .spent .spent := by
  intro acts answer h
  rw [yields_receive h]
  rfl

end Session

/-! ## Parts of runs -/

namespace Run

theorem takes_pure (a : α) : (pure a : Run α).run.Takes use use :=
  Session.takes_done _

theorem takes_lift_bind {session : Session β} {f : β → Run α} (h : session.Takes use mid)
    (hf : ∀ b, (f b).run.Takes mid use') :
    ((liftM session : Run β) >>= f).run.Takes use use' := by
  intro acts result hyields
  obtain ⟨first, b, second, hfirst, hrest, rfl⟩ := yields_lift_bind hyields
  rw [SocketUse.afterAll_append, h _ _ hfirst]
  exact hf b _ _ hrest

/-- An error leaves the socket as the first part does, so the second part has to, too. -/
theorem takes_bind {run : Run β} {f : β → Run α} (h : run.run.Takes use use')
    (hf : ∀ b, (f b).run.Takes use' use') : (run >>= f).run.Takes use use' := by
  refine Session.Takes.bind h fun result => ?_
  cases result with
  | ok b => exact hf b
  | error e => exact Session.takes_done _

theorem takes_checkCancelled : checkCancelled.run.Takes use use := by
  intro acts result h
  obtain ⟨answer, rfl, -⟩ := yields_checkCancelled h
  rw [SocketUse.afterAll_cons, SocketUse.after_aside rfl]
  rfl

theorem takes_pause (millis : UInt64) : (pause millis).run.Takes use use := by
  unfold pause
  refine takes_bind takes_checkCancelled fun _ => ?_
  split
  · exact takes_pure ()
  · exact takes_lift_bind (Session.takes_sleep millis) fun _ => takes_checkCancelled

/-- Events are looked for after something has been sent. -/
theorem takes_await (decide : ReceiveEvent → Option α) (failed : IoError → α) (late : α)
    (left : Nat) : (await decide failed late left).run.Takes .spent .spent := by
  induction left with
  | zero => exact takes_bind takes_checkCancelled fun _ => takes_pure late
  | succ left ih =>
    refine takes_bind takes_checkCancelled fun _ =>
      takes_lift_bind Session.takes_receive fun answer => ?_
    cases answer with
    | error e => exact takes_pure (failed e)
    | ok event =>
      dsimp only
      cases event.bind decide with
      | some a => exact takes_pure a
      | none => exact ih

/-- A socket is closed however its use ends. -/
theorem takes_withSocket {run : Run α} (h : run.run.Takes .fresh .spent) (spec : SocketSpec)
    (refused : TransportError → α) : (withSocket spec refused run).run.Takes .closed .closed := by
  intro acts result hyields
  rcases yields_withSocket hyields with ⟨e, rfl, -⟩ | ⟨inner, hinner, rfl⟩
  · rfl
  · show (SocketUse.fresh.afterAll (inner ++ [.closeSocket])) = _
    rw [SocketUse.afterAll_append, h _ _ hinner]
    rfl

end Run

open Run

/-! ## Runs -/

namespace PingDefinition

theorem takes_probeOnce (d : PingDefinition) : d.probeOnce.run.Takes .closed .closed := by
  refine takes_bind takes_checkCancelled fun _ => takes_withSocket ?_ _ _
  refine takes_lift_bind (Session.takes_send d.payload) fun answer => ?_
  cases answer with
  | error e => exact takes_pure _
  | ok time =>
    exact takes_lift_bind (Session.takes_looks _) fun left => takes_await _ _ _ left

theorem takes_probeAgain (d : PingDefinition) (left : Nat) :
    (d.probeAgain left).run.Takes .closed .closed := by
  induction left with
  | zero => exact takes_pure []
  | succ left ih =>
    exact takes_bind (takes_pause d.interval) fun _ => takes_bind d.takes_probeOnce fun probe =>
      takes_bind ih fun probes => takes_pure (probe :: probes)

theorem takes_probes (d : PingDefinition) : d.probes.run.Takes .closed .closed := by
  unfold probes
  split
  · exact takes_pure []
  · exact takes_bind d.takes_probeOnce fun probe =>
      takes_bind (d.takes_probeAgain _) fun probes => takes_pure (probe :: probes)

end PingDefinition

namespace TracerouteDefinition

theorem takes_hop (d : TracerouteDefinition) (ttl : UInt8) :
    (d.hop ttl).run.Takes .closed .closed :=
  takes_bind (Session.takes_done _) fun ping =>
    takes_bind ping.takes_probes fun probes => takes_pure (probes.map (Hop.mk ttl))

theorem takes_hopsFrom (d : TracerouteDefinition) (ttl left : Nat) :
    (d.hopsFrom ttl left).run.Takes .closed .closed := by
  induction left generalizing ttl with
  | zero => exact takes_pure []
  | succ left ih =>
    refine takes_bind (d.takes_hop (.ofNat ttl)) fun hops => ?_
    split
    · exact takes_pure hops
    · exact takes_bind (ih (ttl + 1)) fun rest => takes_pure (hops ++ rest)

end TracerouteDefinition

namespace SnmpDefinition

theorem takes_query (d : SnmpDefinition) (host : Ipv4) (community : String) :
    (d.query host community).run.Takes .closed .closed := by
  refine takes_withSocket ?_ _ _
  refine takes_lift_bind Session.takes_drawRequestId fun id =>
    takes_lift_bind (Session.takes_send _) fun answer => ?_
  cases answer with
  | error e => exact takes_pure none
  | ok sentAt =>
    exact takes_lift_bind (Session.takes_looks _) fun left => takes_await _ _ _ left

theorem takes_queryUpTo (d : SnmpDefinition) (host : Ipv4) (community : String) (left : Nat) :
    (d.queryUpTo host community left).run.Takes .closed .closed := by
  induction left with
  | zero => exact takes_pure none
  | succ left ih =>
    refine takes_bind (d.takes_query host community) fun rtt => ?_
    cases rtt with
    | some rtt => exact takes_pure (some rtt)
    | none => exact ih

theorem takes_discover (d : SnmpDefinition) (host : Ipv4) (communities : List String) :
    (d.discover host communities).run.Takes .closed .closed := by
  induction communities with
  | nil => exact takes_pure none
  | cons community rest ih =>
    refine takes_bind (d.takes_queryUpTo host community _) fun rtt => ?_
    cases rtt with
    | some rtt => exact takes_pure _
    | none => exact ih

theorem takes_scanAgain (d : SnmpDefinition) (hosts : List Ipv4) :
    (d.scanAgain hosts).run.Takes .closed .closed := by
  induction hosts with
  | nil => exact takes_pure []
  | cons host rest ih =>
    exact takes_bind (takes_pause d.sendInterval) fun _ =>
      takes_bind (d.takes_discover host _) fun device =>
        takes_bind ih fun devices => takes_pure (device.toList ++ devices)

theorem takes_scan (d : SnmpDefinition) (hosts : List Ipv4) :
    (d.scan hosts).run.Takes .closed .closed := by
  cases hosts with
  | nil => exact takes_pure []
  | cons host rest =>
    exact takes_bind (d.takes_discover host _) fun device =>
      takes_bind (d.takes_scanAgain rest) fun devices => takes_pure (device.toList ++ devices)

end SnmpDefinition

/-! ## Starts -/

theorem Ping.takes_start (ping : Ping) : ping.start.Takes .closed .closed := by
  cases h : ping.definition with
  | none =>
    unfold start
    rw [h]
    exact Session.takes_done _
  | some d =>
    rw [Ping.start_eq h]
    exact d.takes_probes.map _

theorem Traceroute.takes_start (route : Traceroute) : route.start.Takes .closed .closed := by
  cases h : route.definition with
  | none =>
    unfold start
    rw [h]
    exact Session.takes_done _
  | some d =>
    rw [Traceroute.start_eq h]
    exact (d.takes_hopsFrom 1 maxHops).map _

theorem Discovery.takes_start (discovery : Discovery) :
    discovery.start.Takes .closed .closed := by
  cases h : discovery.definition with
  | none =>
    unfold start
    rw [h]
    exact Session.takes_done _
  | some d =>
    rw [Discovery.start_eq h]
    exact (d.takes_scan discovery.hosts).map _

theorem Measurement.takes_start (measurement : Measurement) :
    measurement.start.Takes .closed .closed := by
  cases measurement with
  | ping m => exact m.takes_start.map _
  | traceroute m => exact m.takes_start.map _
  | snmp m => exact m.takes_start.map _

namespace Measurement

open ProbeAgent.Simulation

/-- On every scripted network a start ends, and when it does, whether well or with an error, all
sockets that it has opened are closed.  It has used one after the other and sent on none of them
twice, and at no moment was more than one open. -/
theorem start_closes_sockets {σ : Type} {net : Network (StateM σ)} {line : σ → ScriptedLine}
    (hscripted : net.IsScripted line) {s : σ} (hidle : (line s).channel = none)
    (measurement : Measurement) :
    ∃ acts, measurement.start.Yields acts (measurement.start.run net s).1 ∧
      Plays net.Does s acts (measurement.start.run net s).2 ∧
      SocketUse.afterAll .closed acts = some .closed ∧
      (∀ first rest, acts = first ++ rest → ∃ mid, Plays net.Does s first mid ∧
        Plays net.Does mid rest (measurement.start.run net s).2 ∧
        ScriptedLine.OneAtMost (line s).transport (line mid)) ∧
      ScriptedLine.AllClosed (line s).transport (line (measurement.start.run net s).2) := by
  obtain ⟨acts, hyields, hplays⟩ := measurement.start.exists_yields_run net s
  have huse := measurement.takes_start _ _ hyields
  obtain ⟨hclosed, hone⟩ :=
    ScriptedLine.oneAtMost_of_afterAll hidle (hplays.map hscripted) huse
  refine ⟨acts, hyields, hplays, huse, ?_, hclosed⟩
  rintro first rest rfl
  obtain ⟨mid, hfirst, hrest⟩ := hplays.of_append
  exact ⟨mid, hfirst, hrest, hone _ _ _ rfl (hfirst.map hscripted)⟩

/-- A ping of two probes that has been prepared. -/
def twoPings : Measurement :=
  .ping ⟨some { PingDefinition.ofHost "192.0.2.1" with count := 2, destinationPort := 33434 },
    .unknown, []⟩

/-- On the first socket receiving fails, and while the second one is opened the run is cancelled. -/
def cancelledAtSecond : Script := [
  Script.ruleAt 0 .receiveError,
  { Script.ruleAt 1 .silence with incident := { Incident.quiet with cancel := true } }]

theorem twoPings_close_sockets :
    (Bench.network cancelledAtSecond).IsScripted Bench.line ∧ Bench.new.line.channel = none ∧
      (twoPings.start.run (Bench.network cancelledAtSecond) .new).1.1 = .error .cancelled ∧
      (twoPings.start.run (Bench.network cancelledAtSecond) .new).2.line.transport.opened = 2 ∧
      ScriptedLine.AllClosed .unused
        (twoPings.start.run (Bench.network cancelledAtSecond) .new).2.line := by
  have hscripted := Bench.network_isScripted cancelledAtSecond
  obtain ⟨-, -, -, -, -, hclosed⟩ := start_closes_sockets hscripted (s := .new) rfl twoPings
  exact ⟨hscripted, rfl, rfl, rfl, hclosed⟩

end Measurement

end ProbeAgent
