import Mathlib.Data.List.SplitBy
import Mathlib.Order.Bounds.Defs
import ProbeAgent.Measurement.Report

/-!
# Reports of hops

The report of a route has one entry for each longest run of hops with the same time to live
(`MaximalRuns`), and shows each probe once, in order.  What an entry says of its run is in
`HopReport.Covers`.
-/

namespace ProbeAgent

/-! ## Round-trip times -/

namespace PingProbe

/-- The probe was answered, and the answer came so many microseconds after the probe was sent. -/
structure AnsweredAfter (p : PingProbe) (rtt : UInt64) : Prop where
  answered : p.response ≠ .timeout ∧ p.response ≠ .error
  times : ∃ sent received, p.sendTime = some sent ∧ p.receiveTime = some received ∧
    sent.toNat + rtt.toNat = received.toNat

theorem sub_eq_iff_of_le {sent received rtt : UInt64} (h : sent ≤ received) :
    received - sent = rtt ↔ sent.toNat + rtt.toNat = received.toNat := by
  have hle := UInt64.le_iff_toNat_le.1 h
  rw [← UInt64.toNat_inj, UInt64.toNat_sub_of_le _ _ h]
  omega

theorem rtt?_of_answered {p : PingProbe} (h : p.response ≠ .timeout ∧ p.response ≠ .error) :
    p.rtt? = p.receiveTime.bind fun received => p.sendTime.bind fun sent =>
      if sent ≤ received then some (received - sent) else none := by
  unfold rtt?
  split
  · exact absurd ‹_› h.1
  · exact absurd ‹_› h.2
  · rfl

theorem answered_of_rtt? {p : PingProbe} {rtt : UInt64} (h : p.rtt? = some rtt) :
    p.response ≠ .timeout ∧ p.response ≠ .error := by
  unfold rtt? at h
  constructor <;> intro hresponse <;> rw [hresponse] at h <;> contradiction

theorem rtt?_eq_some_iff {p : PingProbe} {rtt : UInt64} :
    p.rtt? = some rtt ↔ p.AnsweredAfter rtt := by
  constructor
  · intro h
    have hanswered := answered_of_rtt? h
    rw [rtt?_of_answered hanswered, Option.bind_eq_some_iff] at h
    obtain ⟨received, hreceived, h⟩ := h
    obtain ⟨sent, hsent, h⟩ := Option.bind_eq_some_iff.1 h
    split at h
    · rename_i hle
      exact ⟨hanswered, sent, received, hsent, hreceived,
        (sub_eq_iff_of_le hle).1 (Option.some.inj h)⟩
    · contradiction
  · rintro ⟨hanswered, sent, received, hsent, hreceived, htimes⟩
    have hle : sent ≤ received := UInt64.le_iff_toNat_le.2 (by omega)
    rw [rtt?_of_answered hanswered, hreceived, hsent, Option.bind_some, Option.bind_some,
      if_pos hle, (sub_eq_iff_of_le hle).2 htimes]

/-- The probe has a round-trip time. -/
def IsTimed (p : PingProbe) : Prop := ∃ rtt, p.AnsweredAfter rtt

theorem isSome_rtt?_iff {p : PingProbe} : p.rtt?.isSome = true ↔ p.IsTimed := by
  rw [Option.isSome_iff_exists]
  exact exists_congr fun _ => rtt?_eq_some_iff

instance (p : PingProbe) : Decidable p.IsTimed := decidable_of_iff _ isSome_rtt?_iff

end PingProbe

/-! ## Statistics -/

-- Both extremes come from a fold that goes on with the next value if that beats the one so far.
theorem foldl_pick {α : Type} (better beats : α → α → Prop) [DecidableRel beats]
    (hrefl : ∀ a, better a a) (htrans : ∀ a b c, better a b → better b c → better a c)
    (hbeats : ∀ a b, beats b a → better b a) (hkept : ∀ a b, ¬ beats b a → better a b)
    (first : α) (rest : List α) :
    rest.foldl (fun a b => if beats b a then b else a) first ∈ first :: rest ∧
      ∀ a ∈ first :: rest,
        better (rest.foldl (fun a b => if beats b a then b else a) first) a := by
  induction rest generalizing first with
  | nil =>
    refine ⟨List.mem_cons_self, fun a ha => ?_⟩
    rw [List.mem_singleton.1 ha]
    exact hrefl first
  | cons b rest ih =>
    rw [List.foldl_cons]
    by_cases h : beats b first
    · rw [if_pos h]
      obtain ⟨hmem, hbest⟩ := ih b
      refine ⟨List.mem_cons_of_mem _ hmem, fun a ha => ?_⟩
      rcases List.mem_cons.1 ha with rfl | ha
      · exact htrans _ _ _ (hbest b List.mem_cons_self) (hbeats _ _ h)
      · exact hbest a ha
    · rw [if_neg h]
      obtain ⟨hmem, hbest⟩ := ih first
      have hfirst := hbest first List.mem_cons_self
      refine ⟨?_, fun a ha => ?_⟩
      · rcases List.mem_cons.1 hmem with heq | hrest
        · rw [heq]
          exact List.mem_cons_self
        · exact List.mem_cons_of_mem _ (List.mem_cons_of_mem _ hrest)
      · rcases List.mem_cons.1 ha with rfl | ha
        · exact hfirst
        rcases List.mem_cons.1 ha with rfl | ha
        · exact htrans _ _ _ hfirst (hkept _ _ h)
        · exact hbest a (List.mem_cons_of_mem _ ha)

namespace RttStatistics

variable {samples : List UInt64}

theorem count_ofSamples : (ofSamples samples).count = .ofNat samples.length := by
  cases samples <;> rfl

theorem isLeast_min_ofSamples (h : samples ≠ []) :
    IsLeast {t | t ∈ samples} (ofSamples samples).min := by
  cases samples with
  | nil => exact absurd rfl h
  | cons first rest =>
    exact foldl_pick (· ≤ ·) (· < ·) UInt64.le_refl (fun _ _ _ => UInt64.le_trans)
      (fun _ _ => UInt64.le_of_lt) (fun _ _ => UInt64.not_lt.1) first rest

theorem isGreatest_max_ofSamples (h : samples ≠ []) :
    IsGreatest {t | t ∈ samples} (ofSamples samples).max := by
  cases samples with
  | nil => exact absurd rfl h
  | cons first rest =>
    exact foldl_pick (· ≥ ·) (· > ·) UInt64.le_refl (fun _ _ _ hab hbc => UInt64.le_trans hbc hab)
      (fun _ _ => UInt64.le_of_lt) (fun _ _ => UInt64.not_lt.1) first rest

end RttStatistics

/-! ## Runs of hops -/

/-- The list is cut into pieces with one time to live each, where no two neighbours have the same. -/
structure MaximalRuns (hops : List Hop) (runs : List (List Hop)) : Prop where
  whole : hops = runs.flatten
  nonempty : [] ∉ runs
  sameTtl : ∀ run ∈ runs, ∀ a ∈ run, ∀ b ∈ run, a.ttl = b.ttl
  maximal : runs.IsChain fun run next => ∀ a ∈ run, ∀ b ∈ next, a.ttl ≠ b.ttl

theorem isChain_ttl_iff {run : List Hop} :
    (run.IsChain fun a b => (a.ttl == b.ttl) = true) ↔ ∀ a ∈ run, ∀ b ∈ run, a.ttl = b.ttl := by
  simp only [beq_iff_eq]
  constructor
  · intro h
    have htrans : IsTrans Hop fun a b => a.ttl = b.ttl := ⟨fun _ _ _ hab hbc => hab.trans hbc⟩
    have hpairs := List.isChain_iff_pairwise.1 h
    have hflipped : run.Pairwise (flip fun a b => a.ttl = b.ttl) := hpairs.imp Eq.symm
    intro a ha b hb
    exact List.Pairwise.forall_of_forall_of_flip (R := fun a b : Hop => a.ttl = b.ttl)
      (fun _ _ => rfl) hpairs hflipped ha hb
  · intro h
    exact List.isChain_iff_getElem.2 fun i hi => h _ (List.getElem_mem _) _ (List.getElem_mem _)

namespace TracerouteReport

variable {hops : List Hop} {runs : List (List Hop)}

/-- There is one way to cut hops into their longest runs, which is that of the report. -/
theorem maximalRuns_iff : MaximalRuns hops runs ↔ runs = groupByTtl hops := by
  rw [eq_comm, groupByTtl, List.splitBy_eq_iff]
  constructor
  · intro h
    refine ⟨h.whole, h.nonempty, fun run hrun => isChain_ttl_iff.2 (h.sameTtl run hrun), ?_⟩
    refine List.isChain_iff_getElem.2 fun i hi => ?_
    have hne (j : Nat) (hj : j < runs.length) : runs[j] ≠ [] :=
      fun hnil => h.nonempty (hnil ▸ List.getElem_mem hj)
    refine ⟨hne i _, hne (i + 1) hi, beq_eq_false_iff_ne.2 ?_⟩
    exact List.isChain_iff_getElem.1 h.maximal i hi _ (List.getLast_mem _) _ (List.head_mem _)
  · rintro ⟨hwhole, hnonempty, hchains, hmaximal⟩
    have hsame (run : List Hop) (hrun : run ∈ runs) := isChain_ttl_iff.1 (hchains run hrun)
    refine ⟨hwhole, hnonempty, hsame, List.isChain_iff_getElem.2 fun i hi a ha b hb => ?_⟩
    -- All hops of a run are like its last one, and like its first one.
    obtain ⟨hrun, hnext, hdiffer⟩ := List.isChain_iff_getElem.1 hmaximal i hi
    rw [hsame _ (List.getElem_mem _) a ha _ (List.getLast_mem hrun),
      hsame _ (List.getElem_mem hi) b hb _ (List.head_mem hnext)]
    exact beq_eq_false_iff_ne.1 hdiffer

/-! ## Reports -/

theorem getElem?_results (i : Nat) :
    (ofHops hops).results[i]? = (groupByTtl hops)[i]?.map (HopReport.ofGroup i) :=
  List.getElem?_mapIdx

theorem length_results : (ofHops hops).results.length = (groupByTtl hops).length :=
  List.length_mapIdx

theorem map_pings_results (hops : List Hop) :
    (ofHops hops).results.map (·.pings) =
      (groupByTtl hops).map (·.map fun h => HopPing.ofProbe h.probe) := by
  refine List.ext_getElem? fun i => ?_
  rw [List.getElem?_map, getElem?_results, Option.map_map, List.getElem?_map]
  rfl

theorem flatMap_pings_results (hops : List Hop) :
    (ofHops hops).results.flatMap (·.pings) = hops.map fun h => HopPing.ofProbe h.probe := by
  have hwhole : (groupByTtl hops).flatten = hops := List.flatten_splitBy _ _
  rw [List.flatMap_def, map_pings_results, ← List.map_flatten, hwhole]

end TracerouteReport

/-- The report of a probe shows its response, and its round-trip time if it has one. -/
def Hop.ShownAs (h : Hop) (ping : HopPing) : Prop :=
  ping.response = h.probe.response ∧ ∀ rtt, ping.rtt = some rtt ↔ h.probe.AnsweredAfter rtt

theorem Hop.shownAs_map_ofProbe (hops : List Hop) :
    List.Forall₂ ShownAs hops (hops.map fun h => HopPing.ofProbe h.probe) :=
  List.forall₂_map_right_iff.2 <|
    List.forall₂_same.2 fun _ _ => ⟨rfl, fun _ => PingProbe.rtt?_eq_some_iff⟩

/-- What the report of a run says; `index` is the place of the run, from 0. -/
structure HopReport.Covers (r : HopReport) (index : Nat) (run : List Hop) : Prop where
  hop : r.hop = .ofNat index
  ttl : r.ttl = .ofNat (index + 1)
  pings : List.Forall₂ Hop.ShownAs run r.pings
  -- The first node that answered with an error.
  address : ∀ a, r.address = some a ↔ ∃ earlier h later, run = earlier ++ h :: later ∧
    h.probe.source = some a ∧ ∀ other ∈ earlier, other.probe.source = none
  count : r.rttCount = .ofNat (run.countP fun h => decide h.probe.IsTimed)
  extremes : (∃ h ∈ run, h.probe.IsTimed) →
    IsLeast {rtt | ∃ h ∈ run, h.probe.AnsweredAfter rtt} r.rttMin ∧
      IsGreatest {rtt | ∃ h ∈ run, h.probe.AnsweredAfter rtt} r.rttMax
  untimed : (∀ h ∈ run, ¬ h.probe.IsTimed) → r.rttMin = 0 ∧ r.rttMax = 0

namespace HopReport

theorem mem_rtts_iff {run : List Hop} {rtt : UInt64} :
    rtt ∈ run.filterMap (·.probe.rtt?) ↔ ∃ h ∈ run, h.probe.AnsweredAfter rtt := by
  simp only [List.mem_filterMap, PingProbe.rtt?_eq_some_iff]

theorem length_rtts (run : List Hop) :
    (run.filterMap (·.probe.rtt?)).length = run.countP fun h => decide h.probe.IsTimed := by
  rw [List.length_filterMap_eq_countP]
  refine List.countP_congr fun h _ => ?_
  rw [PingProbe.isSome_rtt?_iff, decide_eq_true_iff]

theorem covers_ofGroup (index : Nat) (run : List Hop) : (ofGroup index run).Covers index run where
  hop := rfl
  ttl := rfl
  pings := Hop.shownAs_map_ofProbe run
  address a := by
    show run.findSome? (·.probe.source) = some a ↔ _
    exact List.findSome?_eq_some_iff
  count := by
    rw [← length_rtts]
    exact RttStatistics.count_ofSamples
  extremes := by
    rintro ⟨h, hmem, rtt, hrtt⟩
    have hne : run.filterMap (·.probe.rtt?) ≠ [] :=
      List.ne_nil_of_mem (mem_rtts_iff.2 ⟨h, hmem, hrtt⟩)
    simp only [← mem_rtts_iff]
    exact ⟨RttStatistics.isLeast_min_ofSamples hne, RttStatistics.isGreatest_max_ofSamples hne⟩
  untimed huntimed := by
    have hnil : run.filterMap (·.probe.rtt?) = [] := by
      refine List.eq_nil_iff_forall_not_mem.2 fun rtt hmem => ?_
      obtain ⟨h, hh, hrtt⟩ := mem_rtts_iff.1 hmem
      exact huntimed h hh ⟨rtt, hrtt⟩
    unfold ofGroup
    rw [hnil]
    exact ⟨rfl, rfl⟩

end HopReport

/-- The report of a route has one entry for each of the longest runs of hops with one time to live.
All pings of all entries are the probes of the route, in order, and each entry says of its run what
`HopReport.Covers` lists.  Numbers are of 64 bits. -/
theorem TracerouteReport.ofHops_keeps_probes (hops : List Hop) :
    ∃ runs : List (List Hop), (∀ other, MaximalRuns hops other ↔ other = runs) ∧
      List.Forall₂ Hop.ShownAs hops ((ofHops hops).results.flatMap (·.pings)) ∧
      (ofHops hops).hopCount = .ofNat runs.length ∧
      (ofHops hops).results.length = runs.length ∧
      ∀ i run, runs[i]? = some run →
        ∃ r, (ofHops hops).results[i]? = some r ∧ HopReport.Covers r i run := by
  refine ⟨groupByTtl hops, fun _ => maximalRuns_iff, ?_, ?_, length_results, fun i run hrun => ?_⟩
  · rw [flatMap_pings_results]
    exact Hop.shownAs_map_ofProbe hops
  · show UInt64.ofNat (ofHops hops).results.length = _
    rw [length_results]
  · refine ⟨.ofGroup i run, ?_, HopReport.covers_ofGroup i run⟩
    rw [getElem?_results, hrun]
    rfl

end ProbeAgent
