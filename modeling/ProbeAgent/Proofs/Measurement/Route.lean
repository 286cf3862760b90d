import Mathlib.Data.List.SplitBy
import ProbeAgent.Proofs.Measurement.Exchanges
import ProbeAgent.Proofs.Measurement.Lifecycle

/-!
# Routes

A traceroute that is not cancelled probes one time to live after the other, each as often as its
definition says, up to the first that gets to the destination or to the last one allowed.  Its
report has one entry for each, with the probes of that time to live
(`PreparedFor.uncancelled_route`).
-/

namespace ProbeAgent

/-! ## Labelled probes -/

/-- The probes of a route, group by group, with their times to live from this one on. -/
def labelled (ttl : Nat) : List (List PingProbe) → List (Nat × PingProbe)
  | [] => []
  | probes :: rest => probes.map (Prod.mk ttl) ++ labelled (ttl + 1) rest

theorem mem_labelled {groups : List (List PingProbe)} {ttl : Nat} {p : Nat × PingProbe} :
    p ∈ labelled ttl groups ↔
      ∃ i probes, groups[i]? = some probes ∧ p.1 = ttl + i ∧ p.2 ∈ probes := by
  induction groups generalizing ttl with
  | nil => simp [labelled]
  | cons group rest ih =>
    rw [labelled, List.mem_append, ih]
    constructor
    · rintro (hmem | ⟨i, probes, hi, hp, hmem⟩)
      · obtain ⟨probe, hprobe, rfl⟩ := List.mem_map.1 hmem
        exact ⟨0, group, rfl, rfl, hprobe⟩
      · exact ⟨i + 1, probes, hi, by omega, hmem⟩
    · rintro ⟨i, probes, hi, hp, hmem⟩
      cases i with
      | zero =>
        cases hi
        exact .inl (List.mem_map.2 ⟨p.2, hmem, Prod.ext hp.symm rfl⟩)
      | succ i => exact .inr ⟨i, probes, hi, by omega, hmem⟩

theorem map_fst_labelled {groups : List (List PingProbe)} {count : Nat}
    (h : ∀ probes ∈ groups, probes.length = count) (ttl : Nat) :
    (labelled ttl groups).map Prod.fst =
      (List.range' ttl groups.length).flatMap (List.replicate count) := by
  induction groups generalizing ttl with
  | nil => rfl
  | cons group rest ih =>
    rw [labelled, List.map_append, List.map_map, List.length_cons, List.range'_succ,
      List.flatMap_cons, ih fun probes hmem => h probes (List.mem_cons_of_mem _ hmem)]
    congr 1
    rw [← h group List.mem_cons_self]
    exact List.map_const'

/-- The probes with one of the times to live are those of its group. -/
theorem filter_labelled {groups : List (List PingProbe)} {i : Nat} {probes : List PingProbe}
    (h : groups[i]? = some probes) (ttl : Nat) :
    (labelled ttl groups).filter (fun p => p.1 = ttl + i) = probes.map (Prod.mk (ttl + i)) := by
  induction groups generalizing ttl i with
  | nil => cases h
  | cons group rest ih =>
    rw [labelled, List.filter_append]
    cases i with
    | zero =>
      cases h
      rw [List.filter_eq_self.2, List.filter_eq_nil_iff.2, List.append_nil]
      · rfl
      · intro p hmem
        obtain ⟨i, -, -, hp, -⟩ := mem_labelled.1 hmem
        simp
        omega
      · intro p hmem
        obtain ⟨probe, -, rfl⟩ := List.mem_map.1 hmem
        simp
    | succ i =>
      rw [List.filter_eq_nil_iff.2, List.nil_append]
      · have hrest := ih h (ttl + 1)
        rw [Nat.add_right_comm] at hrest
        exact hrest
      · intro p hmem
        obtain ⟨probe, -, rfl⟩ := List.mem_map.1 hmem
        simp

/-! ## Hops -/

/-- The groups of a route that has at most so many hops. -/
structure Survey (count left : Nat) (groups : List (List PingProbe)) : Prop where
  length_le : groups.length ≤ left
  length_each : ∀ probes ∈ groups, probes.length = count
  before_last : ∀ i probes, groups[i]? = some probes → i + 1 < groups.length →
    ∀ probe ∈ probes, probe.response.reachedDestination = false
  last : groups.length < left →
    ∃ probes, groups.getLast? = some probes ∧
      ∃ probe ∈ probes, probe.response.reachedDestination = true

namespace Survey

variable {count left : Nat} {probes : List PingProbe} {groups : List (List PingProbe)}

theorem nil (count : Nat) : Survey count 0 [] where
  length_le := Nat.le_refl 0
  length_each := fun _ hmem => absurd hmem List.not_mem_nil
  before_last := fun _ _ h => by cases h
  last := fun h => absurd h (Nat.lt_irrefl 0)

/-- The hop that gets to the destination is the last one. -/
theorem singleton (hlength : probes.length = count)
    (hends : ∃ probe ∈ probes, probe.response.reachedDestination = true) :
    Survey count (left + 1) [probes] where
  length_le := Nat.le_add_left 1 left
  length_each := by simpa using hlength
  before_last := fun i _ _ hlt => absurd hlt (by simp)
  last := fun _ => ⟨probes, rfl, hends⟩

theorem cons (hlength : probes.length = count)
    (hgoes : ∀ probe ∈ probes, probe.response.reachedDestination = false)
    (h : Survey count left groups) : Survey count (left + 1) (probes :: groups) where
  length_le := Nat.succ_le_succ h.length_le
  length_each := by simpa using ⟨hlength, h.length_each⟩
  before_last := fun i group hi hlt => by
    cases i with
    | zero =>
      cases hi
      exact hgoes
    | succ i => exact h.before_last i group hi (Nat.lt_of_succ_lt_succ hlt)
  last := fun hlt => by
    obtain ⟨group, hlast, hends⟩ := h.last (Nat.lt_of_succ_lt_succ hlt)
    exact ⟨group, by rw [List.getLast?_cons, hlast]; rfl, hends⟩

end Survey

namespace TracerouteDefinition

open Run

theorem endsRoute_map {probes : List PingProbe} (ttl : UInt8) :
    endsRoute (probes.map (Hop.mk ttl)) = true ↔
      ∃ probe ∈ probes, probe.response.reachedDestination = true := by
  simp [endsRoute]

variable {d : TracerouteDefinition}

theorem logs_hop {ttl : UInt8} (hping : (d.hopPing ttl).prepared = .ok (d.hopPing ttl)) :
    Logs (d.hop ttl) fun hops log => ∃ probes : List PingProbe, probes.length = d.count.toNat ∧
      hops = probes.map (Hop.mk ttl) ∧
      log = probes.map (Exchange.mk (d.hopPing ttl).socketSpec) := by
  unfold hop
  rw [hping]
  refine (d.hopPing ttl).logs_probes.bind ?_
  rintro probes _ ⟨hlength, rfl⟩
  exact logs_pure ⟨probes, hlength, rfl, List.append_nil _⟩

/-- The hop that a probe with this time to live makes. -/
def hopOf (p : Nat × PingProbe) : Hop := ⟨.ofNat p.1, p.2⟩

/-- The exchange that a probe with this time to live comes from. -/
def exchangeOf (d : TracerouteDefinition) (p : Nat × PingProbe) : Exchange :=
  ⟨(d.hopPing (.ofNat p.1)).socketSpec, p.2⟩

theorem logs_hopsFrom (hping : ∀ ttl, (d.hopPing ttl).prepared = .ok (d.hopPing ttl))
    (ttl left : Nat) :
    Logs (d.hopsFrom ttl left) fun hops log => ∃ groups, Survey d.count.toNat left groups ∧
      hops = (labelled ttl groups).map hopOf ∧
      log = (labelled ttl groups).map d.exchangeOf := by
  induction left generalizing ttl with
  | zero => exact logs_pure ⟨[], .nil _, rfl, rfl⟩
  | succ left ih =>
    refine (logs_hop (hping _)).bind ?_
    rintro _ _ ⟨probes, hlength, rfl, rfl⟩
    split
    · rename_i hends
      rw [endsRoute_map] at hends
      refine logs_pure ⟨[probes], .singleton hlength hends, ?_, ?_⟩
      · simp [labelled, hopOf]
      · simp [labelled, exchangeOf]
    · rename_i hgoes
      rw [endsRoute_map] at hgoes
      refine (ih (ttl + 1)).bind ?_
      rintro _ _ ⟨groups, hsurvey, rfl, rfl⟩
      have hnone : ∀ probe ∈ probes, probe.response.reachedDestination = false := by
        simpa using hgoes
      refine logs_pure ⟨probes :: groups, hsurvey.cons hlength hnone, ?_, ?_⟩
      · simp [labelled, hopOf]
      · simp [labelled, exchangeOf]

/-- The socket of a probe with this time to live; ports that the definition leaves open are those
that were drawn when it was prepared. -/
def probeSpec (d : TracerouteDefinition) (ports : DrawnPorts) (ttl : Nat) : SocketSpec where
  host := d.host
  sourcePort := if d.sourcePort = 0 then ports.source else d.sourcePort
  destinationPort := if d.destinationPort = 0 then ports.destination else d.destinationPort
  ttl := .ofNat ttl

theorem exchangeOf_of_prepared {accepted : TracerouteDefinition} {ports : DrawnPorts}
    (h : d.prepared ports = .ok accepted) (p : Nat × PingProbe) :
    accepted.exchangeOf p = ⟨d.probeSpec ports p.1, p.2⟩ := by
  obtain ⟨-, rfl⟩ := prepared_eq_ok h
  rfl

end TracerouteDefinition

/-! ## Reports -/

section Reports

variable {groups : List (List PingProbe)} {ttl : Nat}

theorem bounds_of_mem_labelled {p : Nat × PingProbe} (h : p ∈ labelled ttl groups) :
    ttl ≤ p.1 ∧ p.1 < ttl + groups.length := by
  obtain ⟨i, probes, hi, hp, -⟩ := mem_labelled.1 h
  obtain ⟨hlt, -⟩ := List.getElem?_eq_some_iff.1 hi
  omega

/-- The times to live of a route that is not too long fit their type. -/
theorem toNat_ttl_of_mem_labelled {p : Nat × PingProbe} (h : p ∈ labelled ttl groups)
    (hle : ttl + groups.length ≤ 256) : (UInt8.ofNat p.1).toNat = p.1 := by
  have hbounds := bounds_of_mem_labelled h
  exact UInt8.toNat_ofNat_of_lt' (by show p.1 < 256; omega)

/-- A report has the groups of the route. -/
theorem groupByTtl_labelled (hne : [] ∉ groups) (hle : ttl + groups.length ≤ 256) :
    TracerouteReport.groupByTtl ((labelled ttl groups).map TracerouteDefinition.hopOf) =
      groups.mapIdx fun i probes => probes.map fun probe =>
        TracerouteDefinition.hopOf (ttl + i, probe) := by
  induction groups generalizing ttl with
  | nil => rfl
  | cons group rest ih =>
    rw [List.length_cons] at hle
    rw [List.mem_cons, not_or] at hne
    have hle' : ttl + 1 + rest.length ≤ 256 := by omega
    have hrest := ih hne.2 hle'
    unfold TracerouteReport.groupByTtl at hrest ⊢
    rw [labelled, List.map_append, List.map_map, List.splitBy_append, List.splitBy_of_isChain,
      hrest, List.mapIdx_cons, List.singleton_append]
    · simp only [Nat.add_zero, Nat.add_assoc, Nat.add_comm 1]
      rfl
    · simpa using hne.1
    · exact List.isChain_iff_getElem.2 fun i hi => by simp [TracerouteDefinition.hopOf]
    · -- The next group has another time to live.
      intro a ha b hb
      obtain ⟨probe, -, rfl⟩ := List.mem_map.1 (List.mem_of_getLast? ha)
      obtain ⟨p, hp, rfl⟩ := List.mem_map.1 (List.mem_of_mem_head? hb)
      have hbounds := bounds_of_mem_labelled hp
      have hother := toNat_ttl_of_mem_labelled hp hle'
      have hthis : (UInt8.ofNat ttl).toNat = ttl :=
        UInt8.toNat_ofNat_of_lt' (by show ttl < 256; omega)
      refine beq_eq_false_iff_ne.2 fun heq => ?_
      have hnat : ttl = p.1 := by rw [← hthis, ← hother]; exact congrArg UInt8.toNat heq
      omega

theorem results_ofHops (hne : [] ∉ groups) (hle : 1 + groups.length ≤ 256) :
    (TracerouteReport.ofHops ((labelled 1 groups).map TracerouteDefinition.hopOf)).results =
      (groups.mapIdx fun i probes => probes.map fun probe =>
        TracerouteDefinition.hopOf (1 + i, probe)).mapIdx HopReport.ofGroup := by
  rw [← groupByTtl_labelled hne hle]
  rfl

theorem length_results_ofHops (hne : [] ∉ groups) (hle : 1 + groups.length ≤ 256) :
    (TracerouteReport.ofHops
      ((labelled 1 groups).map TracerouteDefinition.hopOf)).results.length = groups.length := by
  rw [results_ofHops hne hle, List.length_mapIdx, List.length_mapIdx]

/-- Each entry of a report is about one group. -/
theorem exists_group_of_result (hne : [] ∉ groups) (hle : 1 + groups.length ≤ 256) {i : Nat}
    {r : HopReport} (hr : (TracerouteReport.ofHops
      ((labelled 1 groups).map TracerouteDefinition.hopOf)).results[i]? = some r) :
    ∃ probes, groups[i]? = some probes ∧ r = .ofGroup i (probes.map fun probe =>
      TracerouteDefinition.hopOf (1 + i, probe)) := by
  rw [results_ofHops hne hle, List.getElem?_mapIdx, List.getElem?_mapIdx] at hr
  cases hi : groups[i]? with
  | none =>
    rw [hi] at hr
    cases hr
  | some probes =>
    rw [hi] at hr
    cases hr
    exact ⟨probes, rfl, rfl⟩

variable {d : TracerouteDefinition}

theorem filter_exchanges {i : Nat} {probes : List PingProbe} (h : groups[i]? = some probes)
    (hle : ttl + groups.length ≤ 256) :
    ((labelled ttl groups).map d.exchangeOf).filter (fun e => e.spec.ttl.toNat = ttl + i) =
      probes.map fun probe => d.exchangeOf (ttl + i, probe) := by
  have hcongr : (labelled ttl groups).filter
      ((fun e : Exchange => e.spec.ttl.toNat = ttl + i) ∘ d.exchangeOf) =
        (labelled ttl groups).filter (fun p => p.1 = ttl + i) := by
    refine List.filter_congr fun p hp => ?_
    show decide ((UInt8.ofNat p.1).toNat = ttl + i) = _
    rw [toNat_ttl_of_mem_labelled hp hle]
  rw [List.filter_map, hcongr, filter_labelled h, List.map_map]
  rfl

end Reports

/-- A route of `n` hops: the acts of its run, whether it got to the destination, and its report. -/
structure RouteOf (d : TracerouteDefinition) (ports : DrawnPorts) (acts : List Act) (n : Nat)
    (endOfRoute : Bool) (report : TracerouteReport) : Prop where
  pos : 1 ≤ n
  le_max : n ≤ maxHops
  opens : acts.filterMap Act.opens? =
    (List.range' 1 n).flatMap fun ttl => List.replicate d.count.toNat (d.probeSpec ports ttl)
  below : ∀ e ∈ exchanges acts, e.spec.ttl.toNat < n →
    e.probe.response.reachedDestination = false
  last : n < maxHops →
    ∃ e ∈ exchanges acts, e.spec.ttl.toNat = n ∧ e.probe.response.reachedDestination = true
  endOfRoute_iff : endOfRoute = true ↔
    ∃ e ∈ exchanges acts, e.spec.ttl.toNat = n ∧ e.probe.response.reachedDestination = true
  hopCount : report.hopCount.toNat = n
  length_results : report.results.length = n
  entry : ∀ i r, report.results[i]? = some r → r.hop.toNat = i ∧ r.ttl.toNat = i + 1 ∧
    r.pings.length = d.count.toNat ∧
    r.pings = ((exchanges acts).filter fun e => e.spec.ttl.toNat = i + 1).map fun e =>
      .ofProbe e.probe

namespace Survey

variable {count left : Nat} {groups : List (List PingProbe)} (h : Survey count left groups)
include h

theorem pos (hleft : 0 < left) : 1 ≤ groups.length := by
  by_contra hnone
  have hnil : groups = [] := List.eq_nil_of_length_eq_zero (by omega)
  obtain ⟨probes, hlast, -⟩ := h.last (by omega)
  rw [hnil] at hlast
  cases hlast

/-- Only probes of the last group get to the destination. -/
theorem eq_of_reached {p : Nat × PingProbe} (hmem : p ∈ labelled 1 groups)
    (hreached : p.2.response.reachedDestination = true) : p.1 = groups.length := by
  obtain ⟨i, probes, hi, hp, hprobe⟩ := mem_labelled.1 hmem
  obtain ⟨hlt, -⟩ := List.getElem?_eq_some_iff.1 hi
  by_contra hne
  have hnot := h.before_last i probes hi (by omega) p.2 hprobe
  rw [hreached] at hnot
  contradiction

theorem exists_reached (hlt : groups.length < left) :
    ∃ p ∈ labelled 1 groups, p.2.response.reachedDestination = true := by
  obtain ⟨probes, hlast, probe, hprobe, hreached⟩ := h.last hlt
  rw [List.getLast?_eq_getElem?] at hlast
  exact ⟨(_, probe), mem_labelled.2 ⟨_, probes, hlast, rfl, hprobe⟩, hreached⟩

theorem nil_not_mem (hcount : count ≠ 0) : [] ∉ groups :=
  fun hmem => hcount (h.length_each [] hmem).symm

end Survey

theorem Survey.routeOf {d accepted : TracerouteDefinition} {ports : DrawnPorts} {acts : List Act}
    {groups : List (List PingProbe)} (haccepted : d.prepared ports = .ok accepted)
    (h : Survey d.count.toNat maxHops groups)
    (hacts : exchanges acts = (labelled 1 groups).map accepted.exchangeOf) :
    RouteOf d ports acts groups.length
      (TracerouteDefinition.endsRoute ((labelled 1 groups).map TracerouteDefinition.hopOf))
      (.ofHops ((labelled 1 groups).map TracerouteDefinition.hopOf)) := by
  have hmax : groups.length ≤ 20 := h.length_le
  have hle : 1 + groups.length ≤ 256 := by omega
  have hne : [] ∉ groups := h.nil_not_mem fun hzero => by
    obtain ⟨hcheck, -⟩ := TracerouteDefinition.prepared_eq_ok haccepted
    exact (PingDefinition.checkTarget_eq_ok hcheck).2 (UInt32.toNat_inj.1 hzero)
  have httl (p : Nat × PingProbe) (hp : p ∈ labelled 1 groups) :
      (accepted.exchangeOf p).spec.ttl.toNat = p.1 := toNat_ttl_of_mem_labelled hp hle
  have hreached : (∃ e ∈ exchanges acts,
      e.spec.ttl.toNat = groups.length ∧ e.probe.response.reachedDestination = true) ↔
        ∃ p ∈ labelled 1 groups, p.2.response.reachedDestination = true := by
    rw [hacts]
    constructor
    · rintro ⟨e, he, -, hreached⟩
      obtain ⟨p, hp, rfl⟩ := List.mem_map.1 he
      exact ⟨p, hp, hreached⟩
    · rintro ⟨p, hp, hreached⟩
      exact ⟨_, List.mem_map_of_mem hp, (httl p hp).trans (h.eq_of_reached hp hreached), hreached⟩
  constructor
  · exact h.pos (by decide)
  · exact hmax
  · have hspec : Exchange.spec ∘ accepted.exchangeOf = d.probeSpec ports ∘ Prod.fst := by
      funext p
      exact congrArg Exchange.spec (TracerouteDefinition.exchangeOf_of_prepared haccepted p)
    rw [← map_spec_exchanges, hacts, List.map_map, hspec, ← List.map_map,
      map_fst_labelled h.length_each, List.map_flatMap]
    simp only [List.map_replicate]
  · intro e he hlt
    rw [hacts] at he
    obtain ⟨p, hp, rfl⟩ := List.mem_map.1 he
    rw [httl p hp] at hlt
    cases hend : (accepted.exchangeOf p).probe.response.reachedDestination with
    | false => rfl
    | true => exact absurd (h.eq_of_reached hp hend) (Nat.ne_of_lt hlt)
  · exact fun hlt => hreached.2 (h.exists_reached hlt)
  · rw [hreached]
    simp [TracerouteDefinition.endsRoute, TracerouteDefinition.hopOf]
  · show (UInt64.ofNat (TracerouteReport.ofHops _).results.length).toNat = _
    rw [length_results_ofHops hne hle]
    exact UInt64.toNat_ofNat_of_lt' (Nat.lt_of_le_of_lt hmax (by decide))
  · exact length_results_ofHops hne hle
  · intro i r hr
    obtain ⟨probes, hi, rfl⟩ := exists_group_of_result hne hle hr
    obtain ⟨hlt, -⟩ := List.getElem?_eq_some_iff.1 hi
    refine ⟨UInt64.toNat_ofNat_of_lt' (by show i < 2 ^ 64; omega),
      UInt64.toNat_ofNat_of_lt' (by show i + 1 < 2 ^ 64; omega), ?_, ?_⟩
    · simpa [HopReport.ofGroup] using h.length_each probes (List.mem_of_getElem? hi)
    · rw [hacts]
      simp only [Nat.add_comm i 1, filter_exchanges hi hle, HopReport.ofGroup, List.map_map]
      rfl

namespace Measurement

/-- Unless it is cancelled, the start of a prepared traceroute succeeds, also in later runs, with a
route of one to twenty hops.  No preparation of a hop fails. -/
theorem PreparedFor.uncancelled_route {ports : DrawnPorts} {d : TracerouteDefinition}
    {measurement next : Measurement} {acts : List Act} {outcome : Except MeasurementError Unit}
    (hprepared : PreparedFor ports (.traceroute d) measurement)
    (hstart : measurement.start.Yields acts (outcome, next)) (htold : ¬ WasTold acts) :
    outcome = .ok () ∧
      (∃ accepted, d.prepared ports = .ok accepted ∧
        ∀ ttl, (accepted.hopPing ttl).prepared = .ok (accepted.hopPing ttl)) ∧
      ∃ n route report, next = .traceroute route ∧ next.result = some (.traceroute report) ∧
        RouteOf d ports acts n route.endOfRoute report := by
  cases hprepared.isSetFor with
  | @traceroute _ accepted m haccepted hm =>
    obtain ⟨result, hrun, rfl, rfl⟩ := traceroute_start_yields hm hstart
    have hping := TracerouteDefinition.prepared_hopPing haccepted
    obtain ⟨hops, log, rfl, ⟨groups, hsurvey, rfl, rfl⟩, hlog⟩ :=
      TracerouteDefinition.logs_hopsFrom hping 1 maxHops _ _ hrun htold
    have hexchanges := hlog []
    rw [List.append_nil, exchanges, List.append_nil] at hexchanges
    have hcount : accepted.count = d.count := by
      obtain ⟨-, rfl⟩ := TracerouteDefinition.prepared_eq_ok haccepted
      rfl
    rw [hcount] at hsurvey
    exact ⟨rfl, ⟨accepted, haccepted, hping⟩, groups.length, _, _, rfl, rfl,
      hsurvey.routeOf haccepted hexchanges⟩

/-- A traceroute with one probe for each hop that has been prepared with drawn ports, and what its
last run left. -/
def singleProbes (status : MeasurementStatus) (hops : List Hop) (endOfRoute : Bool) : Measurement :=
  .traceroute ⟨some { TracerouteDefinition.ofHost "192.0.2.1" with
    count := 1
    destinationPort := 1024
    sourcePort := 1025 }, status, hops, endOfRoute⟩

/-- A router answers the first probe, the destination the second one. -/
def twoHops : List Act := [
  .isCancelled false, .openSocket ⟨"192.0.2.1", 1025, 1024, 1⟩ (.ok ()),
  .send defaultPayload (.ok 100), .looks 1000 1, .isCancelled false,
  .receive (.ok (some (.icmp 11 0 none 150))), .closeSocket,
  .isCancelled false, .openSocket ⟨"192.0.2.1", 1025, 1024, 2⟩ (.ok ()),
  .send defaultPayload (.ok 200), .looks 1000 1, .isCancelled false,
  .receive (.ok (some (.datagram [] 260))), .closeSocket]

theorem singleProbes_two_hops :
    PreparedFor (.ofDraws 0 1)
        (.traceroute { TracerouteDefinition.ofHost "192.0.2.1" with count := 1 })
        (singleProbes .unknown [] false) ∧
      (singleProbes .unknown [] false).start.Yields twoHops (.ok (), singleProbes .finished
        [⟨1, ⟨some 100, some 150, none, .ttlExceeded, none⟩⟩,
          ⟨2, ⟨some 200, some 260, none, .udpResponse, none⟩⟩] true) ∧
      ¬ WasTold twoHops ∧
      ∃ n report, RouteOf { TracerouteDefinition.ofHost "192.0.2.1" with count := 1 } (.ofDraws 0 1)
        twoHops n true report := by
  have hprepared : PreparedFor (.ofDraws 0 1)
      (.traceroute { TracerouteDefinition.ofHost "192.0.2.1" with count := 1 })
      (singleProbes .unknown [] false) :=
    .prepare (show (unprepared .traceroute).prepare _ _ = _ from rfl)
  have hstart : (singleProbes .unknown [] false).start.Yields twoHops
      (.ok (), singleProbes .finished
        [⟨1, ⟨some 100, some 150, none, .ttlExceeded, none⟩⟩,
          ⟨2, ⟨some 200, some 260, none, .udpResponse, none⟩⟩] true) :=
    .act (.isCancelled _) <| .act (.openSocket _) <| .act (.send _) <| .act (.looks _) <|
    .act (.isCancelled _) <| .act (.receive _) <| .act .closeSocket <|
    .act (.isCancelled _) <| .act (.openSocket _) <| .act (.send _) <| .act (.looks _) <|
    .act (.isCancelled _) <| .act (.receive _) <| .act .closeSocket .done
  have htold : ¬ WasTold twoHops := by simp [WasTold, twoHops]
  obtain ⟨-, -, n, route, report, hroute, -, hshape⟩ := hprepared.uncancelled_route hstart htold
  cases hroute
  exact ⟨hprepared, hstart, htold, n, report, hshape⟩

end Measurement

end ProbeAgent
