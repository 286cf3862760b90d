import ProbeAgent.Proofs.Measurement.Attempts

/-!
# Scans

A discovery that is not cancelled visits one host after the other.  A visit tries the communities in
turn, each as often as the definition says, up to the first attempt that succeeds.  The devices of
the report are the hosts with such an attempt (`PreparedFor.uncancelled_scan`).
-/

namespace ProbeAgent

open ProbeAgent.Text (Bytes)

/-! ## Visits -/

/-- Attempts that try the communities of a plan in turn, up to the first that succeeds. -/
structure Tries (d : SnmpDefinition) (plan : List String) (attempts : List Attempt) : Prop where
  in_order : attempts.map Attempt.community <+: plan
  whole : ∀ attempt ∈ attempts, attempt.IsWhole d
  stops : ∀ attempt ∈ attempts.dropLast, ∀ rtt, ¬ attempt.Succeeds rtt
  goesOn : (∀ attempt ∈ attempts, ∀ rtt, ¬ attempt.Succeeds rtt) →
    attempts.map Attempt.community = plan

namespace Tries

variable {d : SnmpDefinition} {plan : List String} {attempt : Attempt} {attempts : List Attempt}

theorem nil (d : SnmpDefinition) : Tries d [] [] where
  in_order := List.prefix_rfl
  whole := by simp
  stops := by simp
  goesOn := fun _ => rfl

/-- An attempt that succeeds is the last one. -/
theorem singleton (hwhole : attempt.IsWhole d) {rtt : UInt64} (h : attempt.Succeeds rtt) :
    Tries d (attempt.community :: plan) [attempt] where
  in_order := List.prefix_append [attempt.community] plan
  whole := by simpa using hwhole
  stops := by simp
  goesOn := fun hnone => absurd h (hnone attempt List.mem_cons_self rtt)

theorem cons (h : Tries d plan attempts) (hwhole : attempt.IsWhole d)
    (hfails : ∀ rtt, ¬ attempt.Succeeds rtt) :
    Tries d (attempt.community :: plan) (attempt :: attempts) where
  in_order := List.cons_prefix_cons.2 ⟨rfl, h.in_order⟩
  whole := List.forall_mem_cons.2 ⟨hwhole, h.whole⟩
  stops := by
    cases attempts with
    | nil => simp
    | cons next rest =>
      rw [List.dropLast_cons_cons]
      exact List.forall_mem_cons.2 ⟨hfails, h.stops⟩
  goesOn := fun hnone => by
    rw [List.map_cons, h.goesOn fun other hother => hnone other (List.mem_cons_of_mem _ hother)]

end Tries

/-- All attempts to get an answer from a host. -/
structure Visit where
  host : Ipv4
  attempts : List Attempt

namespace Visit

def acts (d : SnmpDefinition) (visit : Visit) : List Act :=
  visit.attempts.flatMap (Attempt.acts d visit.host)

/-- The device of an attempt that succeeds. -/
def Finds (visit : Visit) (device : SnmpDevice) : Prop :=
  ∃ attempt ∈ visit.attempts, ∃ rtt, attempt.Succeeds rtt ∧
    device = ⟨.v4 visit.host, attempt.community, rtt⟩

end Visit

namespace SnmpDefinition

/-- The communities of all requests to a host that does not answer, in order. -/
def plan (d : SnmpDefinition) : List String :=
  d.communities.flatMap (List.replicate d.retries.toNat)

/-- `discover` with a single loop. -/
def askEach (d : SnmpDefinition) (host : Ipv4) : List String → Run (Option SnmpDevice)
  | [] => return none
  | community :: rest => do
    match ← d.query host community with
    | some rtt => return some ⟨.v4 host, community, rtt⟩
    | none => d.askEach host rest

theorem askEach_replicate_append (d : SnmpDefinition) (host : Ipv4) (community : String)
    (rest : List String) (left : Nat) :
    d.askEach host (List.replicate left community ++ rest) =
      (do
        match ← d.queryUpTo host community left with
        | some rtt => return some ⟨.v4 host, community, rtt⟩
        | none => d.askEach host rest) := by
  induction left with
  | zero =>
    show _ = pure none >>= _
    rw [pure_bind]
    rfl
  | succ left ih =>
    rw [List.replicate_succ, List.cons_append, askEach, queryUpTo, bind_assoc]
    congr 1
    funext found
    cases found with
    | some rtt => exact (pure_bind _ _).symm
    | none => exact ih

theorem discover_eq_askEach (d : SnmpDefinition) (host : Ipv4) (communities : List String) :
    d.discover host communities =
      d.askEach host (communities.flatMap (List.replicate d.retries.toNat)) := by
  induction communities with
  | nil => rfl
  | cons community rest ih =>
    rw [List.flatMap_cons, askEach_replicate_append, ← ih]
    rfl

theorem transmits_askEach (d : SnmpDefinition) (host : Ipv4) (plan : List String) :
    Run.Transmits (d.askEach host plan) fun found sent => ∃ visit : Visit,
      visit.host = host ∧ Tries d plan visit.attempts ∧ sent = visit.acts d ∧
        ∀ device, found = some device ↔ visit.Finds device := by
  induction plan with
  | nil => exact Run.transmits_pure ⟨⟨host, []⟩, rfl, .nil d, rfl, by simp [Visit.Finds]⟩
  | cons community rest ih =>
    refine (d.transmits_query host community).bind ?_
    rintro found _ ⟨attempt, rfl, hwhole, rfl, hfound⟩
    cases found with
    | some rtt =>
      refine Run.transmits_pure
        ⟨⟨host, [attempt]⟩, rfl, .singleton hwhole ((hfound rtt).1 rfl), ?_, ?_⟩
      · simp [Visit.acts]
      · intro device
        simp [Visit.Finds, ← hfound, eq_comm]
    | none =>
      have hfails (rtt : UInt64) : ¬ attempt.Succeeds rtt := by simp [← hfound]
      apply ih.mono
      rintro device _ ⟨⟨_, attempts⟩, rfl, htries, rfl, hdevice⟩
      refine ⟨⟨_, attempt :: attempts⟩, rfl, htries.cons hwhole hfails, rfl, fun device' => ?_⟩
      rw [hdevice]
      simp [Visit.Finds, hfails]

end SnmpDefinition

/-! ## Scans -/

/-- A whole scan: its hosts, the visits to them, what is sent, and the devices that are found. -/
structure Scan (d : SnmpDefinition) (hosts : List Ipv4) (visits : List Visit) (sent : List Act)
    (devices : List SnmpDevice) : Prop where
  in_order : visits.map Visit.host = hosts
  tries : ∀ visit ∈ visits, Tries d d.plan visit.attempts
  sent_eq : sent = visits.flatMap (Visit.acts d)
  found : ∀ device, device ∈ devices ↔ ∃ visit ∈ visits, visit.Finds device
  scan_order : (devices.map SnmpDevice.address).Sublist (hosts.map .v4)

namespace Scan

variable {d : SnmpDefinition} {hosts : List Ipv4} {visits : List Visit} {sent : List Act}
  {devices : List SnmpDevice}

theorem nil (d : SnmpDefinition) : Scan d [] [] [] [] where
  in_order := rfl
  tries := by simp
  sent_eq := rfl
  found := by simp
  scan_order := List.Sublist.refl []

theorem cons (h : Scan d hosts visits sent devices) {visit : Visit} {found : Option SnmpDevice}
    (htries : Tries d d.plan visit.attempts)
    (hfound : ∀ device, found = some device ↔ visit.Finds device) :
    Scan d (visit.host :: hosts) (visit :: visits) (visit.acts d ++ sent)
      (found.toList ++ devices) where
  in_order := by rw [List.map_cons, h.in_order]
  tries := List.forall_mem_cons.2 ⟨htries, h.tries⟩
  sent_eq := by rw [List.flatMap_cons, h.sent_eq]
  found := fun device => by simp [h.found, hfound]
  scan_order := by
    cases found with
    | none => exact h.scan_order.cons _
    | some device =>
      obtain ⟨attempt, -, rtt, -, rfl⟩ := (hfound device).1 rfl
      exact h.scan_order.cons_cons _

end Scan

namespace SnmpDefinition

theorem transmits_visit (d : SnmpDefinition) {host : Ipv4} {hosts : List Ipv4}
    {rest : Run (List SnmpDevice)}
    (h : Run.Transmits rest fun devices sent => ∃ visits, Scan d hosts visits sent devices) :
    Run.Transmits
      (do
        let device ← d.discover host d.communities
        return device.toList ++ (← rest))
      fun devices sent => ∃ visits, Scan d (host :: hosts) visits sent devices := by
  rw [discover_eq_askEach]
  refine (d.transmits_askEach host d.plan).bind ?_
  rintro found _ ⟨visit, rfl, htries, rfl, hfound⟩
  refine h.bind ?_
  rintro devices sent ⟨visits, hscan⟩
  apply Run.transmits_pure
  rw [List.append_nil]
  exact ⟨visit :: visits, hscan.cons htries hfound⟩

theorem transmits_scanAgain (d : SnmpDefinition) (hosts : List Ipv4) :
    Run.Transmits (d.scanAgain hosts) fun devices sent =>
      ∃ visits, Scan d hosts visits sent devices := by
  induction hosts with
  | nil => exact Run.transmits_pure ⟨[], .nil d⟩
  | cons host rest ih =>
    refine (Run.transmits_pause d.sendInterval).bind ?_
    rintro _ _ rfl
    exact d.transmits_visit ih

theorem transmits_scan (d : SnmpDefinition) (hosts : List Ipv4) :
    Run.Transmits (d.scan hosts) fun devices sent =>
      ∃ visits, Scan d hosts visits sent devices := by
  cases hosts with
  | nil => exact Run.transmits_pure ⟨[], .nil d⟩
  | cons host rest => exact d.transmits_visit (d.transmits_scanAgain rest)

end SnmpDefinition

/-! ## Measurements -/

namespace Measurement

/-- Unless it is cancelled, the start of a prepared discovery succeeds, also in later runs.  Each of
the listed hosts is visited once, each attempt opens one socket and sends at most one datagram, and
the devices of the report are those that the visits find. -/
theorem PreparedFor.uncancelled_scan {ports : DrawnPorts} {d : SnmpDefinition}
    {measurement next : Measurement} {acts : List Act} {outcome : Except MeasurementError Unit}
    (hprepared : PreparedFor ports (.snmp d) measurement)
    (hstart : measurement.start.Yields acts (outcome, next)) (htold : ¬ WasTold acts) :
    outcome = .ok () ∧
      ∃ hosts visits report, Snmp.parseHosts d.hostAddresses = .ok hosts ∧ hosts.Nodup ∧
        next.result = some (.snmp report) ∧ Scan d hosts visits (traffic acts) report.devices ∧
        ∀ visit ∈ visits, ∀ attempt ∈ visit.attempts,
          (attempt.acts d visit.host).filterMap Act.opens? =
              [SnmpDefinition.socketSpec visit.host] ∧
            (attempt.acts d visit.host).countP Act.sends ≤ 1 := by
  cases hprepared.isSetFor with
  | @snmp _ m haccepted hm =>
    obtain ⟨result, hrun, rfl, rfl⟩ := snmp_start_yields hm hstart
    obtain ⟨devices, rfl, visits, hscan⟩ := d.transmits_scan m.hosts _ _ hrun htold
    obtain ⟨-, -, hparse⟩ := SnmpDefinition.parseHosts_of_prepared haccepted
    refine ⟨rfl, m.hosts, visits, ⟨devices⟩, hparse, Snmp.parseHosts_nodup hparse, rfl, hscan, ?_⟩
    intro visit _ attempt _
    exact ⟨attempt.opens_acts d visit.host, attempt.countP_sends_acts_le d visit.host⟩

/-- Two hosts, and one request to each. -/
def twoHosts : SnmpDefinition := .ofHosts "10.0.0.1-10.0.0.2"

/-- A discovery of the two hosts that has been prepared, with what its last run left. -/
def twoHostsScan (status : MeasurementStatus) (devices : List SnmpDevice) : Measurement :=
  .snmp ⟨some twoHosts, [⟨0x0a000001⟩, ⟨0x0a000002⟩], status, devices⟩

/-- A response to a request with this identity. -/
def twoHostsReply (id : Int64) : Bytes :=
  Snmp.Message.encode { twoHosts.request "public" id with pdu := Snmp.getResponse }

/-- There is no socket for the first host.  The second one sends a response to another request, and
then the right one. -/
def secondAnswers : List Act := [
  .openSocket ⟨"10.0.0.1", 0, 161, 0⟩ (.error (.unsupported "linux")), .isCancelled false,
  .openSocket ⟨"10.0.0.2", 0, 161, 0⟩ (.ok ()), .drawRequestId 7,
  .send (twoHosts.request "public" 7).encode (.ok 100), .looks 1000 3, .isCancelled false,
  .receive (.ok (some (.datagram (twoHostsReply 6) 120))), .isCancelled false,
  .receive (.ok (some (.datagram (twoHostsReply 7) 160))), .closeSocket]

theorem twoHosts_second_answers :
    PreparedFor (.ofDraws 0 0) (.snmp twoHosts) (twoHostsScan .unknown []) ∧
      (twoHostsScan .unknown []).start.Yields secondAnswers
        (.ok (), twoHostsScan .finished [⟨.v4 ⟨0x0a000002⟩, "public", 60⟩]) ∧
      ¬ WasTold secondAnswers ∧
      ∃ hosts visits, hosts.Nodup ∧ Scan twoHosts hosts visits (traffic secondAnswers)
        [⟨.v4 ⟨0x0a000002⟩, "public", 60⟩] := by
  have hprepared : PreparedFor (.ofDraws 0 0) (.snmp twoHosts) (twoHostsScan .unknown []) :=
    .prepare (show (unprepared .snmp).prepare _ _ = _ from rfl)
  have hother : SnmpDefinition.verdict "public" 7 100 (.datagram (twoHostsReply 6) 120) = none := by
    decide +kernel
  have hright : SnmpDefinition.verdict "public" 7 100 (.datagram (twoHostsReply 7) 160) =
      some (some 60) := by
    decide +kernel
  have hstart : (twoHostsScan .unknown []).start.Yields secondAnswers
      (.ok (), twoHostsScan .finished [⟨.v4 ⟨0x0a000002⟩, "public", 60⟩]) := by
    refine .act (.openSocket _) <| .act (.isCancelled _) <| .act (.openSocket _) <|
      .act (.drawRequestId _) <| .act (.send _) <| .act (.looks _) <| .act (.isCancelled _) <|
      .act (.receive _) ?_
    simp only [Function.comp_apply, Session.bind, ExceptT.bindCont, Option.bind_some, hother]
    refine .act (.isCancelled _) <| .act (.receive _) ?_
    simp only [Function.comp_apply, Session.bind, ExceptT.bindCont, Option.bind_some, hright]
    exact .act .closeSocket .done
  have htold : ¬ WasTold secondAnswers := by simp [WasTold, secondAnswers]
  obtain ⟨-, hosts, visits, report, -, hnodup, hreport, hscan, -⟩ :=
    hprepared.uncancelled_scan hstart htold
  cases hreport
  exact ⟨hprepared, hstart, htold, hosts, visits, hnodup, hscan⟩

end Measurement

end ProbeAgent
