import ProbeAgent.Proofs.Measurement.CancelledStart
import ProbeAgent.Proofs.Measurement.Exchanges

/-!
# Attempts

Unless a run is told that it has been cancelled, what it does with the network is `traffic`.  An
attempt is one request of a discovery to a host: it has a socket of its own, sends at most one
datagram, and looks for events until one of them ends the wait (`transmits_query`).
-/

namespace ProbeAgent

open ProbeAgent.Text (Bytes)

/-! ## Traffic -/

/-- An act of waiting: the run pauses, or asks whether it has been cancelled. -/
def Act.waits : Act → Bool
  | isCancelled _ | sleep _ => true
  | _ => false

/-- All that a run does with the network: its acts, without those of waiting. -/
def traffic (acts : List Act) : List Act := acts.filter fun act => !act.waits

theorem traffic_append (first second : List Act) :
    traffic (first ++ second) = traffic first ++ traffic second :=
  List.filter_append first second

namespace Run

variable {α β : Type}

/-- Unless the run is told that it has been cancelled, it comes to a value, which stands in this
relation to its traffic. -/
def Transmits (run : Run α) (R : α → List Act → Prop) : Prop :=
  ∀ acts result, run.run.Yields acts result → ¬ WasTold acts →
    ∃ a, result = .ok a ∧ R a (traffic acts)

variable {R : α → List Act → Prop}

theorem Transmits.mono {run : Run α} {S : α → List Act → Prop} (h : Transmits run S)
    (himp : ∀ a sent, S a sent → R a sent) : Transmits run R := by
  intro acts result hyields htold
  obtain ⟨a, rfl, hS⟩ := h _ _ hyields htold
  exact ⟨a, rfl, himp a _ hS⟩

theorem transmits_pure {a : α} (h : R a []) : Transmits (pure a) R := by
  intro acts result hyields _
  obtain ⟨rfl, rfl⟩ := yields_pure hyields
  exact ⟨a, rfl, h⟩

theorem Transmits.bind {run : Run β} {f : β → Run α} {S : β → List Act → Prop}
    (h : Transmits run S)
    (hf : ∀ b sent, S b sent → Transmits (f b) fun a more => R a (sent ++ more)) :
    Transmits (run >>= f) R := by
  intro acts result hyields htold
  rcases yields_bind hyields with ⟨e, hrun, rfl⟩ | ⟨first, b, second, hrun, hrest, rfl⟩
  · obtain ⟨b, heq, -⟩ := h _ _ hrun htold
    cases heq
  · rw [wasTold_append, not_or] at htold
    obtain ⟨_, heq, hS⟩ := h _ _ hrun htold.1
    cases heq
    obtain ⟨a, rfl, hR⟩ := hf b _ hS _ _ hrest htold.2
    exact ⟨a, rfl, by rwa [traffic_append]⟩

theorem transmits_lift {session : Session α}
    (h : ∀ acts a, session.Yields acts a → R a (traffic acts)) : Transmits (liftM session) R := by
  intro acts result hyields _
  obtain ⟨a, hsession, rfl⟩ := yields_lift hyields
  exact ⟨a, rfl, h acts a hsession⟩

theorem transmits_checkCancelled : Transmits checkCancelled fun _ sent => sent = [] := by
  intro acts result hyields htold
  obtain ⟨answer, rfl, rfl⟩ := yields_checkCancelled hyields
  cases answer with
  | false => exact ⟨(), rfl, rfl⟩
  | true => exact absurd List.mem_cons_self htold

theorem transmits_pause (millis : UInt64) : Transmits (pause millis) fun _ sent => sent = [] := by
  unfold pause
  refine transmits_checkCancelled.bind ?_
  rintro _ _ rfl
  split
  · exact transmits_pure rfl
  · refine (transmits_lift (R := fun _ sent => sent = []) ?_).bind ?_
    · intro acts _ hsleep
      cases Session.yields_sleep hsleep
      rfl
    · rintro _ _ rfl
      exact transmits_checkCancelled

theorem transmits_receive :
    Transmits (liftM (Session.receive .done)) fun answer sent => sent = [.receive answer] := by
  apply transmits_lift
  intro acts answer hreceive
  cases Session.yields_receive hreceive
  rfl

theorem transmits_send (payload : Bytes) :
    Transmits (liftM (Session.send payload .done)) fun answer sent =>
      sent = [.send payload answer] := by
  apply transmits_lift
  intro acts answer hsend
  cases Session.yields_send hsend
  rfl

theorem transmits_drawRequestId :
    Transmits (liftM (Session.drawRequestId .done)) fun id sent => sent = [.drawRequestId id] := by
  apply transmits_lift
  intro acts id hdraw
  cases Session.yields_drawRequestId hdraw
  rfl

theorem Transmits.withSocket {use : Run α} (h : Transmits use R) (spec : SocketSpec)
    (refused : TransportError → α) :
    Transmits (withSocket spec refused use) fun a sent =>
      (∃ e, a = refused e ∧ sent = [.openSocket spec (.error e)]) ∨
        ∃ inner, R a inner ∧ sent = .openSocket spec (.ok ()) :: (inner ++ [.closeSocket]) := by
  intro acts result hyields htold
  rcases yields_withSocket hyields with ⟨e, rfl, rfl⟩ | ⟨inner, huse, rfl⟩
  · exact ⟨_, rfl, .inl ⟨e, rfl, rfl⟩⟩
  · have hinner : ¬ WasTold inner := fun hmem =>
      htold (List.mem_cons_of_mem _ (List.mem_append_left _ hmem))
    obtain ⟨a, rfl, hR⟩ := h _ _ huse hinner
    refine ⟨a, rfl, .inr ⟨_, hR, ?_⟩⟩
    show Act.openSocket spec (.ok ()) :: traffic (inner ++ [.closeSocket]) = _
    rw [traffic_append]
    rfl

end Run

/-! ## Waiting for an answer -/

/-- What one look for an event brings. -/
abbrev Received := Except IoError (Option ReceiveEvent)

namespace Snmp

/-- The datagram is a response with the identity and the community of a request. -/
def IsReply (community : String) (id : Int64) (payload : Bytes) : Prop :=
  ∃ reply, Message.decode? payload = some reply ∧ reply.pdu = getResponse ∧
    reply.requestId = id ∧ reply.community = community

/-- What ends the wait for an answer: a failure, an ICMP message, or a reply. -/
inductive EndsWait (community : String) (id : Int64) : Received → Prop where
  | failure (e : IoError) : EndsWait community id (.error e)
  | icmp (type code : UInt8) (offender : Option IpAddress) (time : UInt64) :
      EndsWait community id (.ok (some (.icmp type code offender time)))
  | reply {payload : Bytes} (h : IsReply community id payload) (time : UInt64) :
      EndsWait community id (.ok (some (.datagram payload time)))

/-- A whole wait of at most so many looks: all but the last bring nothing that ends it, and if there
was time for more, the last one did. -/
structure Waited (community : String) (id : Int64) (looks : Nat) (received : List Received) :
    Prop where
  length_le : received.length ≤ looks
  skipped : ∀ r ∈ received.dropLast, ¬ EndsWait community id r
  ended : received.length < looks → ∃ r, received.getLast? = some r ∧ EndsWait community id r

/-- The time from sending to receiving; no time has passed if receiving seems to come first. -/
def roundTrip (sentAt time : UInt64) : UInt64 := if sentAt ≤ time then time - sentAt else 0

/-- A reply comes before anything else that ends the wait, this long after the request. -/
def AnsweredAfter (community : String) (id : Int64) (sentAt : UInt64) (received : List Received)
    (rtt : UInt64) : Prop :=
  ∃ before payload time rest, received = before ++ .ok (some (.datagram payload time)) :: rest ∧
    (∀ r ∈ before, ¬ EndsWait community id r) ∧ IsReply community id payload ∧
    rtt = roundTrip sentAt time

section

variable {community : String} {id : Int64} {sentAt rtt : UInt64} {looks : Nat} {r : Received}
  {received : List Received}

theorem waited_nil : Waited community id 0 [] where
  length_le := Nat.le_refl 0
  skipped := by simp
  ended := by simp

theorem waited_singleton (h : EndsWait community id r) :
    Waited community id (looks + 1) [r] where
  length_le := Nat.le_add_left 1 looks
  skipped := by simp
  ended := fun _ => ⟨r, rfl, h⟩

theorem Waited.cons (h : Waited community id looks received) (hr : ¬ EndsWait community id r) :
    Waited community id (looks + 1) (r :: received) where
  length_le := Nat.succ_le_succ h.length_le
  skipped := by
    cases received with
    | nil => simp
    | cons next rest =>
      rw [List.dropLast_cons_cons]
      exact List.forall_mem_cons.2 ⟨hr, h.skipped⟩
  ended := fun hlt => by
    obtain ⟨last, hlast, hends⟩ := h.ended (Nat.lt_of_succ_lt_succ hlt)
    exact ⟨last, by rw [List.getLast?_cons, hlast]; rfl, hends⟩

/-- What ends the wait answers alone, if at all. -/
theorem answeredAfter_cons_of_ends (hr : EndsWait community id r) :
    AnsweredAfter community id sentAt (r :: received) rtt ↔ ∃ payload time,
      r = .ok (some (.datagram payload time)) ∧ rtt = roundTrip sentAt time := by
  constructor
  · rintro ⟨before, payload, time, rest, heq, hbefore, -, hrtt⟩
    cases before with
    | nil =>
      cases heq
      exact ⟨payload, time, rfl, hrtt⟩
    | cons first before =>
      cases heq
      exact absurd hr (hbefore _ List.mem_cons_self)
  · rintro ⟨payload, time, rfl, hrtt⟩
    cases hr with
    | reply h => exact ⟨[], payload, time, received, rfl, by simp, h, hrtt⟩

theorem answeredAfter_cons_of_not_ends (hr : ¬ EndsWait community id r) :
    AnsweredAfter community id sentAt (r :: received) rtt ↔
      AnsweredAfter community id sentAt received rtt := by
  constructor
  · rintro ⟨before, payload, time, rest, heq, hbefore, hreply, hrtt⟩
    cases before with
    | nil =>
      cases heq
      exact absurd (.reply hreply time) hr
    | cons first before =>
      cases heq
      exact ⟨before, payload, time, rest, rfl,
        fun r hmem => hbefore r (List.mem_cons_of_mem _ hmem), hreply, hrtt⟩
  · rintro ⟨before, payload, time, rest, rfl, hbefore, hreply, hrtt⟩
    exact ⟨r :: before, payload, time, rest, rfl, List.forall_mem_cons.2 ⟨hr, hbefore⟩, hreply,
      hrtt⟩

/-- What a wait comes to, and what it receives on the way. -/
def WaitsFor (community : String) (id : Int64) (sentAt : UInt64) (looks : Nat)
    (found : Option UInt64) (sent : List Act) : Prop :=
  ∃ received, Waited community id looks received ∧ sent = received.map .receive ∧
    ∀ rtt, found = some rtt ↔ AnsweredAfter community id sentAt received rtt

variable {found : Option UInt64} {sent : List Act}

theorem waitsFor_late : WaitsFor community id sentAt 0 none [] :=
  ⟨[], waited_nil, rfl, by simp [AnsweredAfter]⟩

theorem WaitsFor.skip (h : WaitsFor community id sentAt looks found sent)
    (hr : ¬ EndsWait community id r) :
    WaitsFor community id sentAt (looks + 1) found (.receive r :: sent) := by
  obtain ⟨received, hwaited, rfl, hfound⟩ := h
  refine ⟨r :: received, hwaited.cons hr, rfl, fun rtt => ?_⟩
  rw [hfound, answeredAfter_cons_of_not_ends hr]

theorem waitsFor_of_ends (hr : EndsWait community id r)
    (hfound : ∀ rtt, found = some rtt ↔ ∃ payload time,
      r = .ok (some (.datagram payload time)) ∧ rtt = roundTrip sentAt time) :
    WaitsFor community id sentAt (looks + 1) found [.receive r] := by
  refine ⟨[r], waited_singleton hr, rfl, fun rtt => ?_⟩
  rw [hfound, answeredAfter_cons_of_ends hr]

theorem waitsFor_of_reply {payload : Bytes} (h : IsReply community id payload) (time : UInt64) :
    WaitsFor community id sentAt (looks + 1) (some (roundTrip sentAt time))
      [.receive (.ok (some (.datagram payload time)))] := by
  apply waitsFor_of_ends (.reply h time)
  intro rtt
  constructor
  · intro hrtt
    exact ⟨payload, time, rfl, (Option.some.inj hrtt).symm⟩
  · rintro ⟨_, _, heq, rfl⟩
    cases heq
    rfl

end

end Snmp

open Snmp

namespace SnmpDefinition

theorem answers_eq_true_iff {community : String} {id : Int64} {payload : Bytes} :
    answers community id payload = true ↔ IsReply community id payload := by
  unfold answers IsReply
  cases Message.decode? payload <;> simp

-- The induction is on the looks that are left.
theorem transmits_await (community : String) (id : Int64) (sentAt : UInt64) (left : Nat) :
    Run.Transmits (Run.await (verdict community id sentAt) (fun _ => none) none left)
      (WaitsFor community id sentAt left) := by
  induction left with
  | zero =>
    refine Run.transmits_checkCancelled.bind ?_
    rintro _ _ rfl
    exact Run.transmits_pure waitsFor_late
  | succ left ih =>
    have hskip {r : Received} (hr : ¬ EndsWait community id r) :
        Run.Transmits (Run.await (verdict community id sentAt) (fun _ => none) none left)
          fun found sent => WaitsFor community id sentAt (left + 1) found ([.receive r] ++ sent) :=
      ih.mono fun found sent h => h.skip hr
    refine Run.transmits_checkCancelled.bind ?_
    rintro _ _ rfl
    refine Run.transmits_receive.bind ?_
    rintro answer _ rfl
    cases answer with
    | error e => exact Run.transmits_pure (waitsFor_of_ends (.failure e) (by simp))
    | ok event =>
      cases event with
      | none => exact hskip fun h => by cases h
      | some event =>
        cases event with
        | icmp type code offender time =>
          exact Run.transmits_pure (waitsFor_of_ends (.icmp type code offender time) (by simp))
        | datagram payload time =>
          simp only [Option.bind_some, verdict]
          by_cases hreply : IsReply community id payload
          · rw [if_pos (answers_eq_true_iff.2 hreply)]
            exact Run.transmits_pure (waitsFor_of_reply hreply time)
          · rw [if_neg (mt answers_eq_true_iff.1 hreply)]
            exact hskip fun h => by
              cases h with
              | reply h => exact hreply h

end SnmpDefinition

/-! ## Attempts -/

/-- How far an attempt gets: there may be no socket, or the datagram may not be sent. -/
inductive Course where
  | unopened (e : TransportError)
  | unsent (id : Int64) (e : IoError)
  -- The identity and the time of the request, how often there is time to look, and what that brings.
  | sent (id : Int64) (sentAt : UInt64) (looks : Nat) (received : List Received)

/-- One request to a host. -/
structure Attempt where
  community : String
  course : Course

namespace Attempt

/-- What an attempt does with the network: it has a socket of its own, and sends one datagram. -/
def acts (d : SnmpDefinition) (host : Ipv4) : Attempt → List Act
  | ⟨_, .unopened e⟩ => [.openSocket (SnmpDefinition.socketSpec host) (.error e)]
  | ⟨community, .unsent id e⟩ => [
    .openSocket (SnmpDefinition.socketSpec host) (.ok ()), .drawRequestId id,
    .send (d.request community id).encode (.error e), .closeSocket]
  | ⟨community, .sent id sentAt looks received⟩ => [
    .openSocket (SnmpDefinition.socketSpec host) (.ok ()), .drawRequestId id,
    .send (d.request community id).encode (.ok sentAt)]
      ++ (if d.waitTime = 0 then [] else [.looks d.waitTime looks])
      ++ received.map .receive ++ [.closeSocket]

/-- An attempt that is not broken off; without any time to wait there are no looks. -/
def IsWhole (d : SnmpDefinition) : Attempt → Prop
  | ⟨community, .sent id _ looks received⟩ =>
    Waited community id looks received ∧ (d.waitTime = 0 → looks = 0)
  | _ => True

/-- The attempt succeeds, with this round-trip time. -/
def Succeeds (rtt : UInt64) : Attempt → Prop
  | ⟨community, .sent id sentAt _ received⟩ => AnsweredAfter community id sentAt received rtt
  | _ => False

theorem opens_acts (d : SnmpDefinition) (host : Ipv4) (attempt : Attempt) :
    (attempt.acts d host).filterMap Act.opens? = [SnmpDefinition.socketSpec host] := by
  obtain ⟨community, course⟩ := attempt
  cases course with
  | unopened e => rfl
  | unsent id e => rfl
  | sent id sentAt looks received =>
    have hlooks : (received.map Act.receive).filterMap Act.opens? = [] := by
      rw [List.filterMap_map, List.filterMap_eq_nil_iff]
      exact fun _ _ => rfl
    simp only [acts, List.filterMap_append, hlooks]
    split <;> rfl

theorem countP_sends_acts_le (d : SnmpDefinition) (host : Ipv4) (attempt : Attempt) :
    (attempt.acts d host).countP Act.sends ≤ 1 := by
  obtain ⟨community, course⟩ := attempt
  cases course with
  | unopened e => exact Nat.zero_le 1
  | unsent id e => exact Nat.zero_le 1
  | sent id sentAt looks received =>
    have hlooks : (received.map Act.receive).countP Act.sends = 0 := by
      rw [List.countP_map, List.countP_eq_zero]
      exact fun _ _ => Bool.false_ne_true
    simp only [acts, List.countP_append, hlooks]
    split <;> exact Nat.le_refl 1

end Attempt

namespace SnmpDefinition

theorem transmits_looks (timeout : UInt64) :
    Run.Transmits (liftM (Run.looks timeout)) fun looks sent =>
      sent = (if timeout = 0 then [] else [.looks timeout looks]) ∧ (timeout = 0 → looks = 0) := by
  apply Run.transmits_lift
  intro acts looks hyields
  unfold Run.looks at hyields
  split at hyields
  · obtain ⟨rfl, rfl⟩ := hyields.of_done
    simp_all [traffic]
  · cases hyields with
    | act hdoes hrest =>
      cases hdoes
      obtain ⟨rfl, rfl⟩ := hrest.of_done
      simp_all [traffic, Act.waits]

theorem transmits_query (d : SnmpDefinition) (host : Ipv4) (community : String) :
    Run.Transmits (d.query host community) fun found sent => ∃ attempt : Attempt,
      attempt.community = community ∧ attempt.IsWhole d ∧ sent = attempt.acts d host ∧
        ∀ rtt, found = some rtt ↔ attempt.Succeeds rtt := by
  unfold query
  refine (Run.Transmits.withSocket (R := fun found inner => ∃ attempt : Attempt,
    attempt.community = community ∧ attempt.IsWhole d ∧
      attempt.acts d host = .openSocket (socketSpec host) (.ok ()) :: (inner ++ [.closeSocket]) ∧
        ∀ rtt, found = some rtt ↔ attempt.Succeeds rtt) ?_ _ _).mono ?_
  · refine Run.transmits_drawRequestId.bind ?_
    rintro id _ rfl
    refine (Run.transmits_send _).bind ?_
    rintro answer _ rfl
    cases answer with
    | error e =>
      exact Run.transmits_pure
        ⟨⟨community, .unsent id e⟩, rfl, trivial, rfl, by simp [Attempt.Succeeds]⟩
    | ok sentAt =>
      refine (transmits_looks d.waitTime).bind ?_
      rintro looks _ ⟨rfl, hlooks⟩
      apply (transmits_await community id sentAt looks).mono
      rintro found _ ⟨received, hwaited, rfl, hfound⟩
      refine ⟨⟨community, .sent id sentAt looks received⟩, rfl, ⟨hwaited, hlooks⟩, ?_, hfound⟩
      simp [Attempt.acts]
  · rintro found sent (⟨e, rfl, rfl⟩ | ⟨inner, ⟨attempt, hcommunity, hwhole, hacts, hfound⟩, rfl⟩)
    · exact ⟨⟨community, .unopened e⟩, rfl, trivial, rfl, by simp [Attempt.Succeeds]⟩
    · exact ⟨attempt, hcommunity, hwhole, hacts.symm, hfound⟩

end SnmpDefinition

end ProbeAgent
