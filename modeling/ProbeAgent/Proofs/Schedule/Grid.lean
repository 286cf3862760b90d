import ProbeAgent.Proofs.Schedule.Calendar
import ProbeAgent.Proofs.Schedule.Periodic

/-!
# The grid of a periodic schedule

`Periodic.MayRun` says which runs a periodic schedule may offer, without a search.
`nextRunFrom_isFirst_mayRun` shows that rounding, passing the last run and the window together find
the first of them, also from a leap second on.  Outside of leap seconds the points of the grid lie on
one line, and the same is said in terms of it (`nextRunFrom_isFirst`).  What is wanted is a
millisecond generous: a point may lie before the reference.
-/

namespace ProbeAgent.Periodic

/-! ## Numbered points -/

section

variable {anchor reference last run : Instant} {step millis k : Int}

/-- The points of a grid that count for a reference, by their number.  The time from the anchor to
the reference counts in whole milliseconds. -/
def Counts (anchor reference : Instant) (millis k : Int) : Prop :=
  if anchor < reference then (reference.since anchor).tdiv nanosPerMilli ≤ k * millis else 0 ≤ k

/-- A run that the schedule may offer: the reference itself if there is no grid, and otherwise a
point of the grid. -/
inductive MayRun (p : Periodic) (last : Option Instant) (reference : Instant) : Instant → Prop where
  | reference {step : Int} (hstep : p.step? = some step) (hanchor : p.anchor? last = none) :
      MayRun p last reference reference
  | point {step k : Int} {anchor t : Instant} (hstep : p.step? = some step)
      (hanchor : p.anchor? last = some anchor)
      (hcounts : Counts anchor reference p.interval.toNat k)
      (hpoint : anchor.add? (k * step) = some t)
      (hfar : ∀ w, last = some w → nanosPerSecond < t.since w)
      (hfinish : ∀ finish, p.window.finish = some finish → t ≤ finish) : MayRun p last reference t

theorem step?_eq_millis {p : Periodic} (h : p.step? = some step) :
    0 < (p.interval.toNat : Int) ∧ step = p.interval.toNat * nanosPerMilli := by
  unfold step? at h
  split at h
  · cases h
    exact ⟨by omega, rfl⟩
  · contradiction

/-- The points of a grid from a number on, whatever the anchor. -/
theorem isFirst_points (hforward : anchor.Forward (k * step)) (hstep : 0 < step) :
    IsFirst (fun t => ∃ j, k ≤ j ∧ anchor.add? (j * step) = some t) (anchor.add? (k * step)) := by
  have hle {j : Int} (hj : k ≤ j) : k * step ≤ j * step :=
    Int.mul_le_mul_of_nonneg_right hj (by omega)
  cases hpoint : anchor.add? (k * step) with
  | some point =>
    refine ⟨⟨k, Int.le_refl k, hpoint⟩, ?_⟩
    rintro t ⟨j, hj, ht⟩
    exact Instant.le_of_add?_le hforward (hle hj) hpoint ht
  | none =>
    rintro t ⟨j, hj, ht⟩
    obtain ⟨u, hu⟩ := Instant.exists_add?_of_le hforward (hle hj) ht
    rw [hu] at hpoint
    contradiction

/-- Rounding up ends less than a step further. -/
theorem roundUp_bounds {n millis : Int} (hpos : 0 < millis) :
    ∃ k : Int, roundUp n millis = k * millis ∧ n ≤ k * millis ∧ (k - 1) * millis < n := by
  refine ⟨_, rfl, ?_⟩
  have hdiv := Int.ediv_mul_add_emod n millis
  have hmod := Int.emod_lt_of_pos n hpos
  have hmod' := Int.emod_nonneg n (Int.ne_of_gt hpos)
  rw [Int.sub_mul, Int.add_mul]
  split
  · rw [Int.one_mul]
    omega
  · rw [Int.zero_mul, Int.one_mul]
    omega

-- The points that count are those from some number on.
theorem firstPoint_eq (anchor reference : Instant) (hpos : 0 < millis)
    (hstep : step = millis * nanosPerMilli) :
    ∃ k, firstPoint anchor step reference = anchor.add? (k * step) ∧ anchor.Forward (k * step) ∧
      ∀ j, Counts anchor reference millis j ↔ k ≤ j := by
  unfold firstPoint Counts
  by_cases hlt : anchor < reference
  · have hdiv : step / nanosPerMilli = millis := by
      rw [hstep]
      exact Int.mul_ediv_cancel _ (by decide)
    obtain ⟨k, hround, hle, hless⟩ :=
      roundUp_bounds (n := (reference.since anchor).tdiv nanosPerMilli) hpos
    have hmul : k * step = k * millis * nanosPerMilli := by
      rw [hstep, Int.mul_assoc]
    refine ⟨k, ?_, ?_, ?_⟩
    · simp only [if_pos hlt, hdiv, hround, hmul]
    · -- From a leap second to its end the time goes back, but the grid does not go further back.
      by_cases hback : reference.since anchor < 0
      · have htoward := Int.mul_tdiv_self_le (k := nanosPerMilli)
          (show 0 ≤ -reference.since anchor by omega)
        rw [Int.neg_tdiv] at htoward
        apply (Instant.forward_since hlt).mono
        rw [hmul]
        simp only [nanosPerMilli] at htoward hle ⊢
        omega
      · apply (Instant.forward_zero anchor).mono
        have := Int.tdiv_nonneg (show 0 ≤ reference.since anchor by omega)
          (show 0 ≤ nanosPerMilli by decide)
        rw [hmul]
        exact Int.mul_nonneg (by omega) (by decide)
    · intro j
      rw [if_pos hlt]
      constructor
      · intro hj
        by_contra hless'
        have : j * millis ≤ (k - 1) * millis :=
          Int.mul_le_mul_of_nonneg_right (by omega) (by omega)
        omega
      · intro hj
        have : k * millis ≤ j * millis := Int.mul_le_mul_of_nonneg_right hj (by omega)
        omega
  · refine ⟨0, ?_, ?_, ?_⟩
    · rw [if_neg hlt, Int.zero_mul, Instant.add?_zero]
    · rw [Int.zero_mul]
      exact Instant.forward_zero anchor
    · intro j
      rw [if_neg hlt]

-- The induction is on the points that are passed over; `k` is the number of `run`.
theorem passLast_isFirst_point {pos : 0 < step} (hforward : anchor.Forward (k * step))
    (hrun : anchor.add? (k * step) = some run) :
    IsFirst (fun t =>
        (∃ j, k ≤ j ∧ anchor.add? (j * step) = some t) ∧ nanosPerSecond < t.since last)
      (passLast last step pos run) := by
  have hlater {k : Int} {run t : Instant} (hrun : anchor.add? (k * step) = some run)
      (hclose : run.since last ≤ nanosPerSecond)
      (ht : (∃ j, k ≤ j ∧ anchor.add? (j * step) = some t) ∧ nanosPerSecond < t.since last) :
      ∃ j, k + 1 ≤ j ∧ anchor.add? (j * step) = some t := by
    obtain ⟨⟨j, hj, hpoint⟩, hfar⟩ := ht
    by_cases heq : j = k
    · rw [heq, hrun] at hpoint
      cases hpoint
      omega
    · exact ⟨j, by omega, hpoint⟩
  have hnext {k : Int} {run : Instant} (hforward : anchor.Forward (k * step))
      (hrun : anchor.add? (k * step) = some run) :
      run.add? step = anchor.add? ((k + 1) * step) ∧ anchor.Forward ((k + 1) * step) := by
    rw [Int.add_mul, Int.one_mul]
    exact ⟨Instant.add?_add hforward (by omega) hrun, hforward.mono (by omega)⟩
  fun_induction passLast last step pos run generalizing k with
  | case1 run hclose hnone =>
    obtain ⟨hadd, hforward'⟩ := hnext hforward hrun
    have hfirst := isFirst_points hforward' pos
    rw [← hadd, hnone] at hfirst
    exact fun t ht => hfirst t (hlater hrun hclose ht)
  | case2 run hclose next hstep ih =>
    obtain ⟨hadd, hforward'⟩ := hnext hforward hrun
    refine (ih hforward' (hadd ▸ hstep)).congr fun t => ?_
    constructor
    · rintro ⟨⟨j, hj, hpoint⟩, hfar⟩
      exact ⟨⟨j, by omega, hpoint⟩, hfar⟩
    · intro ht
      exact ⟨hlater hrun hclose ht, ht.2⟩
  | case3 run hfar =>
    have hfirst := isFirst_points hforward pos
    rw [hrun] at hfirst
    exact ⟨⟨hfirst.1, by omega⟩, fun t ht => hfirst.2 ht.1⟩

theorem mayRun_iff {p : Periodic} {last : Option Instant} {t : Instant}
    (hstep : p.step? = some step) (hanchor : p.anchor? last = some anchor) :
    p.MayRun last reference t ↔
      ((∃ k, Counts anchor reference p.interval.toNat k ∧ anchor.add? (k * step) = some t) ∧
        ∀ w, last = some w → nanosPerSecond < t.since w) ∧
        ∀ finish, p.window.finish = some finish → t ≤ finish := by
  constructor
  · intro h
    cases h with
    | reference _ hnone =>
      rw [hanchor] at hnone
      contradiction
    | point hstep' hanchor' hcounts hpoint hfar hfinish =>
      rw [hstep] at hstep'
      rw [hanchor] at hanchor'
      cases hstep'
      cases hanchor'
      exact ⟨⟨⟨_, hcounts, hpoint⟩, hfar⟩, hfinish⟩
  · rintro ⟨⟨⟨k, hcounts, hpoint⟩, hfar⟩, hfinish⟩
    exact .point hstep hanchor hcounts hpoint hfar hfinish

/-- A periodic schedule always answers, with the first run it allows. -/
theorem nextRunFrom_isFirst_mayRun (p : Periodic) (last : Option Instant) (reference : Instant) :
    IsFirst (p.MayRun last reference) (p.nextRunFrom last reference) := by
  unfold nextRunFrom
  split
  · rename_i hnone
    intro t ht
    cases ht <;> simp_all
  rename_i step hstep
  rw [← anchor?]
  cases hanchor : p.anchor? last with
  | none =>
    show IsFirst (p.MayRun last reference) (some reference)
    refine ⟨.reference hstep hanchor, ?_⟩
    intro t ht
    cases ht with
    | reference => exact Instant.le_refl reference
    | point _ hsome =>
      rw [hanchor] at hsome
      contradiction
  | some anchor =>
    obtain ⟨hpos, hmillis⟩ := step?_eq_millis hstep
    obtain ⟨k, hpoint, hforward, hcounts⟩ := firstPoint_eq anchor reference hpos hmillis
    have hpoints := isFirst_points hforward (step?_pos hstep)
    refine IsFirst.congr ?_ fun t => (mayRun_iff hstep hanchor).symm
    simp only [hcounts, hpoint, Option.bind_eq_bind]
    cases last with
    | none =>
      refine IsFirst.clip (hpoints.congr fun t => ?_) p.window
      simp
    | some w =>
      simp only
      rw [← Option.bind_assoc]
      refine IsFirst.clip ?_ p.window
      cases hrun : anchor.add? (k * step) with
      | none =>
        rw [hrun] at hpoints
        exact fun t ht => hpoints t ht.1
      | some run =>
        refine (passLast_isFirst_point hforward hrun).congr fun t => ?_
        simp

end

/-! ## Points of a grid -/

section

variable {anchor reference t : Instant} {step millis : Int}

/-- The points of a grid: its anchor, and every step after it. -/
def OnGrid (anchor : Instant) (step : Int) (t : Instant) : Prop :=
  ∃ k : Nat, anchor.add? (k * step) = some t

theorem le_of_onGrid (hstep : 0 < step) (h : OnGrid anchor step t) : anchor ≤ t := by
  obtain ⟨k, hk⟩ := h
  have hnonneg : 0 ≤ (k : Int) * step := Int.mul_nonneg (by omega) (by omega)
  exact Instant.le_of_add?_le anchor.forward_zero hnonneg anchor.add?_zero hk

-- Outside of leap seconds the points lie on one line.
theorem onGrid_iff (hanchor : anchor.isLeap = false) :
    OnGrid anchor step t ↔ t.isLeap = false ∧ ∃ k : Nat, t.nanos = anchor.nanos + k * step := by
  unfold OnGrid
  constructor
  · rintro ⟨k, hk⟩
    obtain ⟨ht, hnanos⟩ := (Instant.add?_eq_some_iff hanchor).1 hk
    exact ⟨ht, k, hnanos⟩
  · rintro ⟨ht, k, hnanos⟩
    exact ⟨k, (Instant.add?_eq_some_iff hanchor).2 ⟨ht, hnanos⟩⟩

/-- The reference counts in whole milliseconds, so the first point may lie before it, but by less
than one. -/
theorem counts_iff_nanos (hanchor : anchor.isLeap = false) (href : reference.isLeap = false)
    (hpos : 0 < millis) (hstep : step = millis * nanosPerMilli) {k : Int} :
    Counts anchor reference millis k ↔
      0 ≤ k ∧ reference.nanos < anchor.nanos + k * step + nanosPerMilli := by
  have hmul : k * step = k * millis * nanosPerMilli := by
    rw [hstep, Int.mul_assoc]
  rw [hmul]
  unfold Counts
  by_cases hlt : anchor < reference
  · rw [if_pos hlt]
    rw [Instant.lt_iff_nanos_lt hanchor href] at hlt
    have helapsed : (reference.since anchor).tdiv nanosPerMilli =
        (reference.nanos - anchor.nanos) / nanosPerMilli := by
      rw [Instant.since_eq_sub href hanchor]
      exact Int.tdiv_eq_ediv_of_nonneg (by omega)
    rw [helapsed]
    simp only [nanosPerMilli]
    constructor
    · intro hle
      refine ⟨?_, by omega⟩
      by_contra hneg
      have := Int.mul_neg_of_neg_of_pos (show k < 0 by omega) hpos
      omega
    · rintro ⟨-, hafter⟩
      omega
  · rw [if_neg hlt]
    rw [Instant.lt_iff_nanos_lt hanchor href] at hlt
    constructor
    · intro hk
      have := Int.mul_nonneg hk (Int.le_of_lt hpos)
      simp only [nanosPerMilli]
      exact ⟨hk, by omega⟩
    · rintro ⟨hk, -⟩
      exact hk

theorem exists_counts_iff (hanchor : anchor.isLeap = false) (href : reference.isLeap = false)
    (hpos : 0 < millis) (hstep : step = millis * nanosPerMilli) :
    (∃ k, Counts anchor reference millis k ∧ anchor.add? (k * step) = some t) ↔
      OnGrid anchor step t ∧ reference.nanos < t.nanos + nanosPerMilli := by
  simp only [counts_iff_nanos hanchor href hpos hstep]
  constructor
  · rintro ⟨k, ⟨hk, hafter⟩, hpoint⟩
    obtain ⟨k, rfl⟩ := Int.eq_ofNat_of_zero_le hk
    rw [← ((Instant.add?_eq_some_iff hanchor).1 hpoint).2] at hafter
    exact ⟨⟨k, hpoint⟩, hafter⟩
  · rintro ⟨⟨k, hpoint⟩, hafter⟩
    rw [((Instant.add?_eq_some_iff hanchor).1 hpoint).2] at hafter
    exact ⟨k, ⟨Int.natCast_nonneg k, hafter⟩, hpoint⟩

end

/-- With an anchor, the next run is the first point of the grid that is not more than a millisecond
before the reference, lies more than a second after the last run, and is not past the end. -/
theorem nextRunFrom_isFirst {p : Periodic} {last : Option Instant} {reference anchor : Instant}
    {step : Int} (hanchor : p.anchor? last = some anchor) (hstep : p.step? = some step)
    (hleap : anchor.isLeap = false) (href : reference.isLeap = false) :
    IsFirst (fun t => ((OnGrid anchor step t ∧ reference.nanos < t.nanos + nanosPerMilli) ∧
        ∀ w, last = some w → nanosPerSecond < t.since w) ∧
        ∀ finish, p.window.finish = some finish → t ≤ finish)
      (p.nextRunFrom last reference) := by
  obtain ⟨hpos, hmillis⟩ := step?_eq_millis hstep
  refine (p.nextRunFrom_isFirst_mayRun last reference).congr fun t => ?_
  rw [mayRun_iff hstep hanchor, exists_counts_iff hleap href hpos hmillis]

end ProbeAgent.Periodic
