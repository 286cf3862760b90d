import ProbeAgent.Proofs.Measurement.Lifecycle
import ProbeAgent.Proofs.Measurement.Run

/-!
# Starts that were cancelled before

A ping and a traceroute ask whether they have been cancelled before they do anything else, so a
start that was cancelled before leaves the network alone.  A discovery asks only when it waits: it
opens sockets to its first host until one of them takes a datagram (`start_of_cancelled`).
-/

namespace ProbeAgent

/-- Whenever it was asked whether the run had been cancelled, the answer was yes. -/
def AlwaysTold (acts : List Act) : Prop := .isCancelled false ∉ acts

theorem AlwaysTold.left {first second : List Act} (h : AlwaysTold (first ++ second)) :
    AlwaysTold first :=
  fun hmem => h (List.mem_append_left second hmem)

theorem AlwaysTold.right {first second : List Act} (h : AlwaysTold (first ++ second)) :
    AlwaysTold second :=
  fun hmem => h (List.mem_append_right first hmem)

/-- Whether the act sends a datagram. -/
def Act.sends : Act → Bool
  | send _ (.ok _) => true
  | _ => false

/-! ## Runs that ask first -/

namespace Run

variable {α β : Type}

/-- A run that was cancelled before it began asks for it and ends. -/
def StopsAtOnce (run : Run α) : Prop :=
  ∀ acts result, run.run.Yields acts result → AlwaysTold acts →
    acts = [.isCancelled true] ∧ result = .error .cancelled

theorem stopsAtOnce_checkCancelled : StopsAtOnce checkCancelled := by
  intro acts result hyields htold
  obtain ⟨answer, rfl, rfl⟩ := yields_checkCancelled hyields
  cases answer with
  | false => exact absurd List.mem_cons_self htold
  | true => exact ⟨rfl, rfl⟩

theorem StopsAtOnce.bind {run : Run α} (h : StopsAtOnce run) (f : α → Run β) :
    StopsAtOnce (run >>= f) := by
  intro acts result hyields htold
  rcases yields_bind hyields with ⟨e, hrun, rfl⟩ | ⟨first, a, second, hrun, -, rfl⟩
  · obtain ⟨hacts, herror⟩ := h _ _ hrun htold
    cases herror
    exact ⟨hacts, rfl⟩
  · obtain ⟨-, hok⟩ := h _ _ hrun htold.left
    cases hok

theorem stopsAtOnce_pause (millis : UInt64) : StopsAtOnce (pause millis) :=
  stopsAtOnce_checkCancelled.bind _

theorem stopsAtOnce_await (decide : ReceiveEvent → Option α) (failed : IoError → α) (late : α)
    (left : Nat) : StopsAtOnce (await decide failed late left) := by
  cases left with
  | zero => exact stopsAtOnce_checkCancelled.bind _
  | succ left => exact stopsAtOnce_checkCancelled.bind _

end Run

open Run

theorem PingDefinition.probes_stopsAtOnce {d : PingDefinition} (h : d.count ≠ 0) :
    StopsAtOnce d.probes := by
  unfold probes
  split
  · rename_i hzero
    exact absurd (UInt32.toNat_inj.1 hzero) h
  · exact (stopsAtOnce_checkCancelled.bind _).bind _

theorem TracerouteDefinition.hops_stopsAtOnce {d accepted : TracerouteDefinition}
    {ports : DrawnPorts} (h : d.prepared ports = .ok accepted) : StopsAtOnce accepted.hops := by
  have hhop : StopsAtOnce (accepted.hop 1) := by
    unfold hop
    rw [prepared_hopPing h 1]
    exact (PingDefinition.probes_stopsAtOnce (count_ne_zero_of_prepared h)).bind _
  exact hhop.bind _

/-! ## Runs that send first -/

namespace Run

variable {α β : Type}

/-- A run that was cancelled before it began opens sockets, at most so many, until it has sent a
datagram: then it ends as cancelled.  If it cannot send any, it ends with nothing. -/
def StopsOnceSent (spec : SocketSpec) (tries : Nat) (run : Run (Option α)) : Prop :=
  ∀ acts result, run.run.Yields acts result → AlwaysTold acts →
    (result = .ok none ∧ acts.countP Act.sends = 0 ∧
      acts.filterMap Act.opens? = List.replicate tries spec) ∨
    (result = .error .cancelled ∧ acts.countP Act.sends = 1 ∧ ∃ opened, 0 < opened ∧
      opened ≤ tries ∧ acts.filterMap Act.opens? = List.replicate opened spec)

theorem stopsOnceSent_none (spec : SocketSpec) :
    StopsOnceSent spec 0 (pure none : Run (Option α)) := by
  intro acts result hyields htold
  obtain ⟨rfl, rfl⟩ := yields_pure hyields
  exact .inl ⟨rfl, rfl, rfl⟩

/-- What goes on from a first run only if that found nothing tries as often as both. -/
theorem StopsOnceSent.bind {spec : SocketSpec} {m n : Nat} {run : Run (Option β)}
    {f : Option β → Run (Option α)} (h : StopsOnceSent spec m run)
    (hf : StopsOnceSent spec n (f none)) : StopsOnceSent spec (n + m) (run >>= f) := by
  intro acts result hyields htold
  rcases yields_bind hyields with ⟨e, hrun, rfl⟩ | ⟨first, b, second, hrun, hrest, rfl⟩
  · rcases h _ _ hrun htold with ⟨herror, -⟩ | ⟨herror, hsent, opened, hpos, hle, hopens⟩
    · cases herror
    · cases herror
      exact .inr ⟨rfl, hsent, opened, hpos, by omega, hopens⟩
  · rcases h _ _ hrun htold.left with ⟨hok, hsent, hopens⟩ | ⟨hok, -⟩
    · cases hok
      rw [List.countP_append, List.filterMap_append, hsent, hopens]
      rcases hf _ _ hrest htold.right with ⟨rfl, hsent', hopens'⟩ |
        ⟨rfl, hsent', opened, hpos, hle, hopens'⟩
      · rw [hsent', hopens', List.replicate_append_replicate]
        exact .inl ⟨rfl, rfl, by rw [Nat.add_comm]⟩
      · rw [hsent', hopens', List.replicate_append_replicate]
        exact .inr ⟨rfl, rfl, m + opened, by omega, by omega, rfl⟩
    · cases hok

end Run

namespace SnmpDefinition

/-- The socket that the requests to a host go through. -/
def socketSpec (host : Ipv4) : SocketSpec := ⟨host.render, 0, agentPort, 0⟩

theorem query_stopsOnceSent (d : SnmpDefinition) (host : Ipv4) (community : String) :
    StopsOnceSent (socketSpec host) 1 (d.query host community) := by
  intro acts result hyields htold
  rcases yields_withSocket hyields with ⟨e, rfl, rfl⟩ | ⟨inner, huse, rfl⟩
  · exact .inl ⟨rfl, rfl, rfl⟩
  obtain ⟨_, id, _, hdraw, hask, rfl⟩ := yields_lift_bind huse
  cases Session.yields_drawRequestId hdraw
  obtain ⟨_, answer, rest, hsend, hrest, rfl⟩ := yields_lift_bind hask
  cases Session.yields_send hsend
  cases answer with
  | error e =>
    obtain ⟨rfl, rfl⟩ := yields_pure hrest
    exact .inl ⟨rfl, rfl, rfl⟩
  | ok sentAt =>
    -- The wait for an answer is the first thing that asks.
    obtain ⟨looking, left, waiting, hlooks, hawait, rfl⟩ := yields_lift_bind hrest
    have hwaiting : AlwaysTold waiting := fun hmem => htold (by simp [hmem])
    obtain ⟨rfl, rfl⟩ := stopsAtOnce_await _ _ _ _ _ _ hawait hwaiting
    refine .inr ⟨rfl, ?_, 1, Nat.one_pos, Nat.le_refl 1, ?_⟩
    · rcases Session.yields_looks hlooks with rfl | rfl <;> rfl
    · rcases Session.yields_looks hlooks with rfl | rfl <;> rfl

theorem queryUpTo_stopsOnceSent (d : SnmpDefinition) (host : Ipv4) (community : String)
    (left : Nat) : StopsOnceSent (socketSpec host) left (d.queryUpTo host community left) := by
  induction left with
  | zero => exact stopsOnceSent_none _
  | succ left ih =>
    refine StopsOnceSent.bind (d.query_stopsOnceSent host community) ?_
    exact ih

theorem discover_stopsOnceSent (d : SnmpDefinition) (host : Ipv4) (communities : List String) :
    StopsOnceSent (socketSpec host) (communities.length * d.retries.toNat)
      (d.discover host communities) := by
  induction communities with
  | nil =>
    rw [List.length_nil, Nat.zero_mul]
    exact stopsOnceSent_none _
  | cons community rest ih =>
    rw [List.length_cons, Nat.succ_mul]
    exact (d.queryUpTo_stopsOnceSent host community _).bind ih

/-- A cancelled scan goes no further than its first host.  If that could not be sent anything and is
the only one, the scan ends with an empty result. -/
theorem scan_of_cancelled (d : SnmpDefinition) {host : Ipv4} {hosts : List Ipv4} {acts : List Act}
    {result : Except MeasurementError (List SnmpDevice)}
    (h : (d.scan (host :: hosts)).run.Yields acts result) (htold : AlwaysTold acts) :
    (result = .error .cancelled ∧ acts.countP Act.sends = 1 ∧ ∃ opened, 0 < opened ∧
      opened ≤ d.communities.length * d.retries.toNat ∧
      acts.filterMap Act.opens? = List.replicate opened (socketSpec host)) ∨
    (result = (if hosts = [] then .ok [] else .error .cancelled) ∧ acts.countP Act.sends = 0 ∧
      acts.filterMap Act.opens? =
        List.replicate (d.communities.length * d.retries.toNat) (socketSpec host)) := by
  have hfirst := d.discover_stopsOnceSent host d.communities
  rcases yields_bind h with ⟨e, hrun, rfl⟩ | ⟨first, device, second, hrun, hrest, rfl⟩
  · rcases hfirst _ _ hrun htold with ⟨herror, -⟩ | ⟨herror, hacts⟩
    · cases herror
    · cases herror
      exact .inl ⟨rfl, hacts⟩
  · rcases hfirst _ _ hrun htold.left with ⟨hok, hsent, hopens⟩ | ⟨hok, -⟩
    · cases hok
      cases hosts with
      | nil =>
        obtain ⟨rfl, rfl⟩ := yields_pure hrest
        rw [List.countP_append, List.filterMap_append, hsent, hopens]
        exact .inr ⟨rfl, rfl, List.append_nil _⟩
      | cons other more =>
        obtain ⟨rfl, rfl⟩ := ((stopsAtOnce_pause _).bind _).bind _ _ _ hrest htold.right
        rw [List.countP_append, List.filterMap_append, hsent, hopens]
        exact .inr ⟨rfl, rfl, List.append_nil _⟩
    · cases hok

end SnmpDefinition

/-! ## Measurements -/

namespace Measurement

/-- The start of a prepared measurement that was cancelled before.  Pings and traceroutes do nothing
but ask.  A discovery opens sockets to its first host, at least one and at most one for each
request.  If it sends a datagram or has more hosts, the start ends as cancelled; otherwise it ends
well, with an empty result. -/
theorem start_of_cancelled {ports : DrawnPorts} {definition : Definition}
    {measurement next : Measurement} {acts : List Act} {outcome : Except MeasurementError Unit}
    (hprepared : PreparedFor ports definition measurement)
    (hstart : measurement.start.Yields acts (outcome, next)) (htold : AlwaysTold acts) :
    (definition.method ≠ .snmp →
      acts = [.isCancelled true] ∧ outcome = .error .cancelled ∧ next.result = none) ∧
    (∀ d, definition = .snmp d → ∃ host hosts opened, d.prepared = .ok (host :: hosts) ∧
      acts.filterMap Act.opens? = List.replicate opened (SnmpDefinition.socketSpec host) ∧
      0 < opened ∧ opened ≤ d.communities.length * d.retries.toNat ∧
      ((outcome = .error .cancelled ∧ next.result = none ∧ acts.countP Act.sends ≤ 1 ∧
          (acts.countP Act.sends = 1 ∨ hosts ≠ [])) ∨
        (outcome = .ok () ∧ next.result = some (.snmp ⟨[]⟩) ∧ acts.countP Act.sends = 0 ∧
          hosts = []))) := by
  cases hprepared.isSetFor with
  | ping haccepted hm =>
    refine ⟨fun _ => ?_, fun d hd => by cases hd⟩
    obtain ⟨result, hrun, rfl, rfl⟩ := ping_start_yields hm hstart
    have hcount := PingDefinition.count_ne_zero_of_prepared haccepted
    obtain ⟨rfl, rfl⟩ := PingDefinition.probes_stopsAtOnce hcount _ _ hrun htold
    exact ⟨rfl, rfl, rfl⟩
  | traceroute haccepted hm =>
    refine ⟨fun _ => ?_, fun d hd => by cases hd⟩
    obtain ⟨result, hrun, rfl, rfl⟩ := traceroute_start_yields hm hstart
    obtain ⟨rfl, rfl⟩ := TracerouteDefinition.hops_stopsAtOnce haccepted _ _ hrun htold
    exact ⟨rfl, rfl, rfl⟩
  | @snmp d m haccepted hm =>
    refine ⟨fun hmethod => absurd rfl hmethod, fun d' hd => ?_⟩
    cases hd
    obtain ⟨result, hrun, rfl, rfl⟩ := snmp_start_yields hm hstart
    obtain ⟨hcommunities, hretries, hhosts⟩ := SnmpDefinition.prepared_eq_ok haccepted
    obtain ⟨host, hosts, hm'⟩ := List.exists_cons_of_ne_nil hhosts
    rw [hm'] at hrun haccepted
    have htries : 0 < d.communities.length * d.retries.toNat :=
      Nat.mul_pos (List.length_pos_iff.2 hcommunities)
        (Nat.pos_of_ne_zero fun hzero => hretries (UInt32.toNat_inj.1 hzero))
    rcases d.scan_of_cancelled hrun htold with
      ⟨rfl, hsent, opened, hpos, hle, hopens⟩ | ⟨rfl, hsent, hopens⟩
    · exact ⟨host, hosts, opened, haccepted, hopens, hpos, hle,
        .inl ⟨rfl, rfl, Nat.le_of_eq hsent, .inl hsent⟩⟩
    · refine ⟨host, hosts, _, haccepted, hopens, htries, Nat.le_refl _, ?_⟩
      by_cases hnil : hosts = []
      · rw [if_pos hnil]
        exact .inr ⟨rfl, rfl, hsent, hnil⟩
      · rw [if_neg hnil]
        exact .inl ⟨rfl, rfl, by omega, .inr hnil⟩

/-- A ping that has been prepared and has not run. -/
def freshPing : Measurement :=
  .ping ⟨some { PingDefinition.ofHost "192.0.2.1" with destinationPort := 33434 }, .unknown, []⟩

theorem freshPing_of_cancelled :
    PreparedFor (.ofDraws 0 0) (.udpPing (.ofHost "192.0.2.1")) freshPing ∧
      freshPing.start.Yields [.isCancelled true] (.error .cancelled, freshPing) ∧
      AlwaysTold [.isCancelled true] ∧ freshPing.result = none := by
  have hprepared : PreparedFor (.ofDraws 0 0) (.udpPing (.ofHost "192.0.2.1")) freshPing :=
    .prepare (show (unprepared .udpPing).prepare _ _ = _ from rfl)
  have hstart : freshPing.start.Yields [.isCancelled true] (.error .cancelled, freshPing) :=
    .act (.isCancelled true) .done
  have htold : AlwaysTold [.isCancelled true] := by simp [AlwaysTold]
  obtain ⟨-, -, hnone⟩ := (start_of_cancelled hprepared hstart htold).1 (by decide)
  exact ⟨hprepared, hstart, htold, hnone⟩

/-- A discovery of a single host that has been prepared, with what its last run left. -/
def singleHost (status : MeasurementStatus) : Measurement :=
  .snmp ⟨some (.ofHosts "10.0.0.1"), [⟨0x0a000001⟩], status, []⟩

/-- No socket can be opened, nothing asks, and the start ends with a result. -/
theorem singleHost_unnoticed :
    PreparedFor (.ofDraws 0 0) (.snmp (.ofHosts "10.0.0.1")) (singleHost .unknown) ∧
      AlwaysTold [.openSocket ⟨"10.0.0.1", 0, 161, 0⟩ (.error (.unsupported "linux"))] ∧
      (singleHost .unknown).start.Yields
        [.openSocket ⟨"10.0.0.1", 0, 161, 0⟩ (.error (.unsupported "linux"))]
        (.ok (), singleHost .finished) ∧
      (singleHost .finished).result = some (.snmp ⟨[]⟩) := by
  have hprepared : (unprepared .snmp).prepare (.ofDraws 0 0) (.snmp (.ofHosts "10.0.0.1")) =
      .ok (singleHost .unknown) := rfl
  refine ⟨.prepare hprepared, by simp [AlwaysTold], ?_, rfl⟩
  exact .act (.openSocket (.error (.unsupported "linux"))) .done

end Measurement

end ProbeAgent
