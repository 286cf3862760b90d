import ProbeAgent.Proofs.Measurement.Lifecycle
import ProbeAgent.Proofs.Simulation.Bench

/-!
# Cycles of a ping

A ping gives each of its probes a socket of its own, so on a bench a probe says what the reply of
its own socket says, and nothing of the others.  `ScriptedReply.verdict` reads that off the reply
alone; `PreparedFor.start_scripted` is that a start gets to its end with the verdicts of all
replies, in their order.
-/

namespace ProbeAgent

open ProbeAgent.Text (Bytes)
open ProbeAgent.Simulation

/-! ## Verdicts -/

/-- What a probe says, whenever it was sent. -/
structure Verdict where
  response : PingResponse
  source : Option IpAddress
  -- Microseconds from the datagram to the event that decided.
  rtt : Option UInt64
  error : Option String
  deriving DecidableEq

namespace Verdict

def timeout : Verdict := ⟨.timeout, none, none, none⟩

def failed (error : String) : Verdict := ⟨.error, none, none, some error⟩

/-- The probe that says so, if its datagram was sent then. -/
def toProbe (v : Verdict) (sent : Option UInt64) : PingProbe where
  sendTime := sent
  receiveTime := do return (← sent) + (← v.rtt)
  source := v.source
  response := v.response
  error := v.error

end Verdict

/-- The probe whose datagram was sent then, and nothing has come back. -/
def PingProbe.sentAt (time : UInt64) : PingProbe := { unanswered with sendTime := some time }

def PingProbe.verdict (p : PingProbe) : Verdict := ⟨p.response, p.source, p.rtt?, p.error⟩

namespace Verdict

/-- The verdicts that end a wait: only an answer has a round-trip time. -/
inductive IsDecided : Verdict → Prop where
  | failed (error : String) : IsDecided (.failed error)
  | answered (response : PingResponse) (source : Option IpAddress) (rtt : UInt64)
      (hlate : response ≠ .timeout) (hfailed : response ≠ .error) :
      IsDecided ⟨response, source, some rtt, none⟩

/-- The round-trip time comes back from the times of the probe if they do not overflow. -/
theorem IsDecided.verdict_toProbe {v : Verdict} (h : v.IsDecided) {clock : UInt64}
    (hrange : ∀ rtt ∈ v.rtt, clock.toNat + rtt.toNat < UInt64.size) :
    (v.toProbe (some clock)).verdict = v := by
  cases h with
  | failed error => rfl
  | answered response source rtt hlate hfailed =>
    have hadd : (clock + rtt).toNat = clock.toNat + rtt.toNat := by
      rw [UInt64.toNat_add, Nat.mod_eq_of_lt (hrange rtt rfl)]
    have hle : clock ≤ clock + rtt := by
      rw [UInt64.le_iff_toNat_le, hadd]
      exact Nat.le_add_right _ _
    have hrtt : (toProbe ⟨response, source, some rtt, none⟩ (some clock)).rtt? = some rtt := by
      calc (toProbe ⟨response, source, some rtt, none⟩ (some clock)).rtt?
        _ = if clock ≤ clock + rtt then some (clock + rtt - clock) else none := by
          cases response <;> first | rfl | contradiction
        _ = some rtt := by rw [if_pos hle, UInt64.add_comm, UInt64.add_sub_cancel]
    rw [PingProbe.verdict, hrtt]
    rfl

end Verdict

namespace ScriptedReply

/-- The verdict on a probe for which this happens next: `none` if it goes on waiting. -/
def decides : ScriptedReply → Option Verdict
  | ttlExceeded sender rtt => some ⟨.ttlExceeded, some sender, some rtt, none⟩
  | unreachable sender rtt => some ⟨.destinationUnreachable, some sender, some rtt, none⟩
  | icmp type code sender rtt =>
    if type = 11 ∧ code = 0 then some ⟨.ttlExceeded, some sender, some rtt, none⟩
    else if type = 3 then some ⟨.destinationUnreachable, some sender, some rtt, none⟩
    else none
  | datagram _ rtt | answer _ rtt => some ⟨.udpResponse, none, some rtt, none⟩
  | receiveError => some (.failed "receive: scripted receive failure")
  | sequence _ | silence | openError | sendError => none

/-- Why no datagram is sent. -/
def refusal? : ScriptedReply → Option String
  | openError => some "socket: scripted open failure"
  | reply =>
    match reply.queue with
    | sendError :: _ => some "send: scripted send failure"
    | _ => none

/-- The verdict on the probe whose socket has this reply. -/
def verdict (reply : ScriptedReply) : Verdict :=
  match reply.refusal? with
  | some error => .failed error
  | none => (reply.queue.findSome? decides).getD .timeout

theorem refusal?_of_sendError {reply : ScriptedReply} {rest : List ScriptedReply}
    (h : reply.queue = sendError :: rest) :
    reply.refusal? = some "send: scripted send failure" := by
  unfold refusal?
  split
  · cases h
  · rw [h]

theorem refusal?_of_ne {reply : ScriptedReply} (hopen : reply ≠ openError)
    (hsend : ∀ rest, reply.queue ≠ sendError :: rest) : reply.refusal? = none := by
  unfold refusal?
  split
  · exact absurd rfl hopen
  · split
    · exact absurd ‹_› (hsend _)
    · rfl

theorem isDecided_of_decides {reply : ScriptedReply} {v : Verdict} (h : reply.decides = some v) :
    v.IsDecided := by
  cases reply with
  | icmp type code sender rtt =>
    rw [decides] at h
    by_cases hexceeded : type = 11 ∧ code = 0
    · rw [if_pos hexceeded] at h
      cases h
      exact .answered _ _ _ (by decide) (by decide)
    · rw [if_neg hexceeded] at h
      by_cases hunreachable : type = 3
      · rw [if_pos hunreachable] at h
        cases h
        exact .answered _ _ _ (by decide) (by decide)
      · rw [if_neg hunreachable] at h
        cases h
  | receiveError =>
    cases h
    exact .failed _
  | ttlExceeded | unreachable | datagram | answer =>
    cases h
    exact .answered _ _ _ (by decide) (by decide)
  | sequence | silence | openError | sendError => cases h

theorem verdict_of_sent {reply : ScriptedReply} (h : reply.refusal? = none) :
    reply.verdict = (reply.queue.findSome? decides).getD .timeout := by
  rw [verdict, h]

theorem verdict_eq_timeout_or (reply : ScriptedReply) :
    reply.verdict = .timeout ∨ reply.verdict.IsDecided := by
  cases hrefusal : reply.refusal? with
  | some error =>
    rw [verdict, hrefusal]
    exact .inr (.failed error)
  | none =>
    rw [verdict_of_sent hrefusal]
    cases hfound : reply.queue.findSome? decides with
    | none => exact .inl rfl
    | some v =>
      obtain ⟨first, -, hfirst⟩ := List.exists_of_findSome?_eq_some hfound
      exact .inr (isDecided_of_decides hfirst)

/-! ## Probes -/

/-- The probe whose socket has this reply, if its datagram is sent at that time. -/
def probeAt (reply : ScriptedReply) (clock : UInt64) : PingProbe :=
  reply.verdict.toProbe (if reply.refusal?.isNone then some clock else none)

/-- The time after the attempt. -/
def clockAfter (reply : ScriptedReply) (clock : UInt64) : UInt64 :=
  if reply.refusal?.isNone then clock + ScriptedTransport.sendStep else clock

/-- One probe for each reply. -/
def probesFrom (clock : UInt64) : List ScriptedReply → List PingProbe
  | [] => []
  | reply :: replies => reply.probeAt clock :: probesFrom (reply.clockAfter clock) replies

/-- The times at which probes are answered do not overflow. -/
def inRange (clock : UInt64) : List ScriptedReply → Bool
  | [] => true
  | reply :: replies =>
    (reply.verdict.rtt.all fun rtt => clock.toNat + rtt.toNat < UInt64.size) &&
      inRange (reply.clockAfter clock) replies

theorem inRange_cons {clock : UInt64} {reply : ScriptedReply} {replies : List ScriptedReply}
    (h : inRange clock (reply :: replies)) :
    (∀ rtt ∈ reply.verdict.rtt, clock.toNat + rtt.toNat < UInt64.size) ∧
      inRange (reply.clockAfter clock) replies := by
  rw [inRange, Bool.and_eq_true, Option.all_eq_true] at h
  exact ⟨fun rtt hmem => of_decide_eq_true (h.1 rtt hmem), h.2⟩

theorem probeAt_of_refusal {reply : ScriptedReply} {error : String}
    (h : reply.refusal? = some error) (clock : UInt64) :
    reply.probeAt clock = PingProbe.unanswered.failed error := by
  rw [probeAt, verdict, h]
  rfl

theorem probeAt_of_sent {reply : ScriptedReply} (h : reply.refusal? = none) (clock : UInt64) :
    reply.probeAt clock = ((reply.queue.findSome? decides).getD .timeout).toProbe (some clock) := by
  rw [probeAt, verdict, h]
  rfl

theorem clockAfter_of_refusal {reply : ScriptedReply} {error : String}
    (h : reply.refusal? = some error) (clock : UInt64) : reply.clockAfter clock = clock := by
  rw [clockAfter, h]
  rfl

theorem clockAfter_of_sent {reply : ScriptedReply} (h : reply.refusal? = none) (clock : UInt64) :
    reply.clockAfter clock = clock + ScriptedTransport.sendStep := by
  rw [clockAfter, h]
  rfl

/-- A probe that is answered in the range of times says what the reply says. -/
theorem verdict_probeAt {reply : ScriptedReply} {clock : UInt64}
    (hrange : ∀ rtt ∈ reply.verdict.rtt, clock.toNat + rtt.toNat < UInt64.size) :
    (reply.probeAt clock).verdict = reply.verdict := by
  cases hrefusal : reply.refusal? with
  | some error =>
    rw [probeAt_of_refusal hrefusal, verdict, hrefusal]
    rfl
  | none =>
    rw [probeAt_of_sent hrefusal, ← verdict_of_sent hrefusal]
    rcases reply.verdict_eq_timeout_or with htimeout | hdecided
    · rw [htimeout]
      rfl
    · exact hdecided.verdict_toProbe hrange

theorem receiveTime_probeAt_of_timeout {reply : ScriptedReply} {clock : UInt64}
    (h : (reply.probeAt clock).response = .timeout) : (reply.probeAt clock).receiveTime = none := by
  have hrtt : reply.verdict.rtt = none := by
    replace h : reply.verdict.response = .timeout := h
    rcases reply.verdict_eq_timeout_or with htimeout | hdecided
    · rw [htimeout]
      rfl
    · cases hv : reply.verdict
      rw [hv] at h hdecided
      cases hdecided with
      | failed error => rfl
      | answered response source rtt hlate hfailed => exact absurd h hlate
  rw [probeAt, Verdict.toProbe, hrtt]
  split <;> rfl

theorem length_probesFrom (clock : UInt64) (replies : List ScriptedReply) :
    (probesFrom clock replies).length = replies.length := by
  induction replies generalizing clock with
  | nil => rfl
  | cons reply replies ih => rw [probesFrom, List.length_cons, ih, List.length_cons]

theorem map_verdict_probesFrom {clock : UInt64} {replies : List ScriptedReply}
    (h : inRange clock replies) :
    (probesFrom clock replies).map PingProbe.verdict = replies.map verdict := by
  induction replies generalizing clock with
  | nil => rfl
  | cons reply replies ih =>
    obtain ⟨hfirst, hrest⟩ := inRange_cons h
    rw [probesFrom, List.map_cons, verdict_probeAt hfirst, ih hrest, List.map_cons]

theorem receiveTime_of_timeout {clock : UInt64} {replies : List ScriptedReply} {probe : PingProbe}
    (hmem : probe ∈ probesFrom clock replies) (h : probe.response = .timeout) :
    probe.receiveTime = none := by
  induction replies generalizing clock with
  | nil => cases hmem
  | cons reply replies ih =>
    rcases List.mem_cons.1 hmem with rfl | hmem
    · exact receiveTime_probeAt_of_timeout h
    · exact ih hmem

/-- What ends the wait of a probe are the replies that decide, and with their verdicts. -/
theorem heard_eq_decides (sentAt : UInt64) (payload : Bytes) (reply : ScriptedReply) :
    heard (PingProbe.sentAt sentAt).decided
        (fun e => (PingProbe.sentAt sentAt).failed ("receive: " ++ e.message)) sentAt payload reply =
      reply.decides.map (·.toProbe (some sentAt)) := by
  cases reply with
  | icmp type code sender rtt =>
    by_cases hexceeded : type = 11 ∧ code = 0
    · obtain ⟨rfl, rfl⟩ := hexceeded
      rfl
    · by_cases hunreachable : type = 3
      · subst hunreachable
        rfl
      · have hevent : PingResponse.ofEvent (.icmp type code (some sender) (sentAt + rtt)) = none :=
          (if_neg hexceeded).trans (if_neg hunreachable)
        rw [decides, if_neg hexceeded, if_neg hunreachable]
        show (PingResponse.ofEvent _).bind _ = none
        rw [hevent]
        rfl
  | _ => rfl

end ScriptedReply

/-! ## Cycles -/

namespace PingDefinition

open ScriptedReply

variable {d : PingDefinition} {script : Script} {b : Bench}

theorem ends_awaitReply (script : Script) (htimeout : d.receiveTimeout ≠ 0)
    (hb : b.cancelled = false) (sentAt : UInt64) (payload : Bytes) (pending : List ScriptedReply) :
    ∃ rest, Ends script (d.awaitReply (.sentAt sentAt)) (waiting b pending sentAt payload)
      (((pending.findSome? decides).getD .timeout).toProbe (some sentAt))
      (waiting b rest sentAt payload) := by
  obtain ⟨rest, hrest⟩ := ends_await script hb (PingProbe.sentAt sentAt).decided
    (fun e => (PingProbe.sentAt sentAt).failed ("receive: " ++ e.message)) (.sentAt sentAt) sentAt
    payload pending
  have hfirst : pending.findSome? (heard (PingProbe.sentAt sentAt).decided
        (fun e => (PingProbe.sentAt sentAt).failed ("receive: " ++ e.message)) sentAt payload) =
      (pending.findSome? decides).map (·.toProbe (some sentAt)) := by
    rw [List.map_findSome?, funext (heard_eq_decides sentAt payload)]
    rfl
  rw [hfirst] at hrest
  have hlooks : Ends script (liftM (Run.looks d.receiveTimeout)) (waiting b pending sentAt payload)
      (pending.length + 1) (waiting b pending sentAt payload) := by
    rw [Run.looks, if_neg htimeout]
    exact ends_lift rfl
  refine ⟨rest, hlooks.bind ?_⟩
  cases hfound : pending.findSome? decides <;> rwa [hfound] at hrest

/-- A cycle tells what its own reply tells, and uses one attempt. -/
theorem ends_probeOnce (htimeout : d.receiveTimeout ≠ 0) (hb : b.cancelled = false)
    {reply : ScriptedReply} (hreply : (script.ruleFor b.log.length d.socketSpec).reply = reply)
    (hquiet : (script.ruleFor b.log.length d.socketSpec).incident.cancel = false) :
    ∃ c, Ends script d.probeOnce b (reply.probeAt b.line.transport.clock) c ∧
      c.cancelled = false ∧ c.log = d.socketSpec :: b.log ∧
      c.line.transport.clock = reply.clockAfter b.line.transport.clock := by
  by_cases hopen : reply = .openError
  · subst hopen
    exact ⟨_, (ends_checkCancelled hb).bind (ends_withSocket_refused hreply hquiet), hb, rfl, rfl⟩
  by_cases hsend : ∃ rest, reply.queue = .sendError :: rest
  · obtain ⟨rest, hqueue⟩ := hsend
    have hrefusal := refusal?_of_sendError hqueue
    rw [probeAt_of_refusal hrefusal, clockAfter_of_refusal hrefusal]
    refine ⟨closed (opened b d.socketSpec reply), ?_, hb, rfl, rfl⟩
    refine (ends_checkCancelled hb).bind (ends_withSocket hreply hquiet hopen ?_)
    exact (ends_lift (send_opened_of_sendError hqueue d.payload)).bind (ends_pure _)
  · rw [not_exists] at hsend
    have hsent := refusal?_of_ne hopen hsend
    rw [probeAt_of_sent hsent, clockAfter_of_sent hsent]
    obtain ⟨rest, hawait⟩ := ends_awaitReply script htimeout
      (b := sent (opened b d.socketSpec reply)) hb b.line.transport.clock d.payload reply.queue
    refine ⟨closed (waiting (sent (opened b d.socketSpec reply)) rest b.line.transport.clock
      d.payload), ?_, hb, rfl, rfl⟩
    refine (ends_checkCancelled hb).bind (ends_withSocket hreply hquiet hopen ?_)
    exact (ends_lift (send_opened hsend d.payload)).bind hawait

/-- A cycle and those that come after it. -/
theorem ends_cycles (htimeout : d.receiveTimeout ≠ 0) {reply : ScriptedReply}
    {replies : List ScriptedReply} (hb : b.cancelled = false)
    (h : script.Answers d.socketSpec b.log.length (reply :: replies)) :
    ∃ c, Ends script (do
          let probe ← d.probeOnce
          return probe :: (← d.probeAgain replies.length)) b
        (probesFrom b.line.transport.clock (reply :: replies)) c ∧
      c.log = List.replicate (replies.length + 1) d.socketSpec ++ b.log := by
  induction replies generalizing b reply with
  | nil =>
    obtain _ | ⟨hreply, hquiet, -⟩ := h
    obtain ⟨c, hprobe, -, hlog, -⟩ := ends_probeOnce htimeout hb hreply hquiet
    exact ⟨c, hprobe.bind ((ends_pure []).bind (ends_pure _)), hlog⟩
  | cons second replies ih =>
    obtain _ | ⟨hreply, hquiet, h⟩ := h
    obtain ⟨next, hprobe, hnext, hlog, hclock⟩ := ends_probeOnce htimeout hb hreply hquiet
    have hlength : next.log.length = b.log.length + 1 := by rw [hlog, List.length_cons]
    rw [← hlength] at h
    obtain ⟨c, hrest, hc⟩ := ih hnext h
    rw [hclock] at hrest
    refine ⟨c, hprobe.bind (((ends_pause hnext d.interval).bind hrest).bind (ends_pure _)), ?_⟩
    rw [hc, hlog, List.length_cons, List.replicate_succ' (n := replies.length + 1),
      List.append_assoc]
    rfl

theorem ends_probes (htimeout : d.receiveTimeout ≠ 0) {replies : List ScriptedReply}
    (hcount : replies.length = d.count.toNat) (hb : b.cancelled = false)
    (h : script.Answers d.socketSpec b.log.length replies) :
    ∃ c, Ends script d.probes b (probesFrom b.line.transport.clock replies) c ∧
      c.log = List.replicate d.count.toNat d.socketSpec ++ b.log := by
  unfold probes
  rw [← hcount]
  cases replies with
  | nil => exact ⟨b, ends_pure [], rfl⟩
  | cons reply replies => exact ends_cycles htimeout hb h

end PingDefinition

/-! ## Starts -/

/-- A bench on which a run of the ping is not cancelled and its attempts get these replies, with
times that do not overflow. -/
structure PingDefinition.Staged (d : PingDefinition) (script : Script) (b : Bench)
    (replies : List ScriptedReply) : Prop where
  uncancelled : b.cancelled = false
  count : replies.length = d.count.toNat
  answers : script.Answers d.socketSpec b.log.length replies
  inRange : ScriptedReply.inRange b.line.transport.clock replies

namespace Measurement

/-- A start on the bench `b` gets to its end with a report of these probes, and it leaves the bench
`c`. -/
def Probes (script : Script) (b : Bench) (measurement : Measurement) (probes : List PingProbe)
    (c : Bench) : Prop :=
  ∃ next, measurement.start.run (Bench.network script) b = ((.ok (), next), c) ∧
    next.result = some (.ping (.ofProbes probes))

theorem Probes.unique {script : Script} {b c c' : Bench} {measurement : Measurement}
    {probes probes' : List PingProbe} (h : Probes script b measurement probes c)
    (h' : Probes script b measurement probes' c') : probes = probes' := by
  obtain ⟨next, hrun, hresult⟩ := h
  obtain ⟨next', hrun', hresult'⟩ := h'
  rw [hrun] at hrun'
  cases hrun'
  have hreport : PingReport.ofProbes probes = PingReport.ofProbes probes' :=
    RunResult.ping.inj (Option.some.inj (hresult.symm.trans hresult'))
  exact congrArg PingReport.probes hreport

variable {ports : DrawnPorts} {d accepted : PingDefinition} {m : Measurement} {script : Script}
  {b : Bench} {replies : List ScriptedReply}

theorem PreparedFor.probes_of_staged (hprepared : PreparedFor ports (.udpPing d) m)
    (haccepted : d.prepared = .ok accepted) (htimeout : d.receiveTimeout ≠ 0)
    (hstaged : accepted.Staged script b replies) :
    ∃ c, Probes script b m (ScriptedReply.probesFrom b.line.transport.clock replies) c ∧
      c.log = List.replicate accepted.count.toNat accepted.socketSpec ++ b.log := by
  cases hprepared.isSetFor with
  | @ping _ accepted' m haccepted' hm =>
    cases haccepted.symm.trans haccepted'
    have htimeout' : accepted.receiveTimeout ≠ 0 := by
      obtain ⟨-, rfl⟩ := PingDefinition.prepared_eq_ok haccepted
      exact htimeout
    obtain ⟨c, hends, hlog⟩ := PingDefinition.ends_probes htimeout' hstaged.count
      hstaged.uncancelled hstaged.answers
    refine ⟨c, ⟨.ping (m.after (.ok _)).2, ?_, rfl⟩, hlog⟩
    show (_ <$> m.start).run (Bench.network script) b = _
    rw [Session.run_map, Ping.start_eq hm, Session.run_map, hends]
    rfl

/-- However the replies go, a start makes as many attempts to open a socket as the definition asks
for and gets to its end with as many probes, in their order: each says what its own reply says.  A
probe that timed out has no time of receiving.  On any other bench, a probe whose reply is the same
says the same. -/
theorem PreparedFor.start_scripted (hprepared : PreparedFor ports (.udpPing d) m)
    (haccepted : d.prepared = .ok accepted) (htimeout : d.receiveTimeout ≠ 0)
    (hstaged : accepted.Staged script b replies) :
    ∃ probes c, Probes script b m probes c ∧
      c.log = List.replicate d.count.toNat accepted.socketSpec ++ b.log ∧
      probes.length = d.count.toNat ∧
      probes.map PingProbe.verdict = replies.map ScriptedReply.verdict ∧
      (∀ probe ∈ probes, probe.response = .timeout → probe.receiveTime = none) ∧
      ∀ script' b' replies', accepted.Staged script' b' replies' →
        ∀ probes' c', Probes script' b' m probes' c' →
          ∀ i : Nat, replies[i]? = replies'[i]? →
            probes[i]?.map PingProbe.verdict = probes'[i]?.map PingProbe.verdict := by
  have hcount : accepted.count = d.count := by
    obtain ⟨-, rfl⟩ := PingDefinition.prepared_eq_ok haccepted
    rfl
  obtain ⟨c, hprobes, hlog⟩ := hprepared.probes_of_staged haccepted htimeout hstaged
  have hverdicts := ScriptedReply.map_verdict_probesFrom hstaged.inRange
  refine ⟨_, c, hprobes, by rw [hlog, hcount], ?_, hverdicts, ?_, ?_⟩
  · rw [ScriptedReply.length_probesFrom, hstaged.count, hcount]
  · exact fun probe hmem h => ScriptedReply.receiveTime_of_timeout hmem h
  · intro script' b' replies' hstaged' probes' c' hprobes' i hsame
    obtain ⟨_, hplayed, -⟩ := hprepared.probes_of_staged haccepted htimeout hstaged'
    cases hprobes'.unique hplayed
    have hverdicts' := ScriptedReply.map_verdict_probesFrom hstaged'.inRange
    rw [← List.getElem?_map, ← List.getElem?_map, hverdicts, hverdicts', List.getElem?_map,
      List.getElem?_map, hsame]

/-- Six probes, and a reply of another kind for each. -/
def sixPings : PingDefinition := { PingDefinition.ofHost "192.0.2.1" with count := 6 }

def sixReplies : List ScriptedReply :=
  let router : IpAddress := .v4 ⟨0x0a000001⟩
  [.openError, .sequence [.icmp 11 1 router 300, .silence, .ttlExceeded router 1500],
    .sequence [.sendError, .datagram [] 10], .sequence [.icmp 5 0 router 300, .receiveError],
    .sequence [.icmp 3 13 router 800, .datagram [] 900], .sequence [.silence, .icmp 4 0 router 20]]

theorem sixPings_scripted :
    ∃ m probes c, PreparedFor (.ofDraws 0 0) (.udpPing sixPings) m ∧
      Probes (Script.ofReplies 0 sixReplies) .new m probes c ∧ c.log.length = 6 ∧
      probes.map PingProbe.verdict = [
        .failed "socket: scripted open failure",
        ⟨.ttlExceeded, some (.v4 ⟨0x0a000001⟩), some 1500, none⟩,
        .failed "send: scripted send failure",
        .failed "receive: scripted receive failure",
        ⟨.destinationUnreachable, some (.v4 ⟨0x0a000001⟩), some 800, none⟩,
        .timeout] := by
  have hprepared : PreparedFor (.ofDraws 0 0) (.udpPing sixPings)
      (.ping ⟨some { sixPings with destinationPort := 33434 }, .unknown, []⟩) :=
    .prepare (show (unprepared .udpPing).prepare _ _ = _ from rfl)
  have hstaged : PingDefinition.Staged { sixPings with destinationPort := 33434 }
      (Script.ofReplies 0 sixReplies) .new sixReplies :=
    ⟨rfl, rfl, Script.answers_ofReplies _ 0 sixReplies, by decide +kernel⟩
  obtain ⟨probes, c, hprobes, hlog, hlength, hverdicts, -, -⟩ :=
    hprepared.start_scripted rfl (by decide) hstaged
  refine ⟨_, probes, c, hprepared, hprobes, ?_, ?_⟩
  · rw [hlog]
    rfl
  · rw [hverdicts]
    rfl

end Measurement

end ProbeAgent
