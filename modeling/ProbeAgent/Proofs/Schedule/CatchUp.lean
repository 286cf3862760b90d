import ProbeAgent.Proofs.Schedule.Occurrences

/-!
# Catching up with a grid

From a reference that is a whole number of milliseconds after the anchor, nothing is lost by counting
in milliseconds: the next run is the least point of the grid that is not before the reference and
more than a second after the last run (`nextRunFrom_iff_isLeast_wanted`).  The loop that passes the
last run is also given round by round (`Passes`), and ends wherever the last run lies.

An anchor in a leap second is the exception: at a time of day that is not later, the leap second is
missing from the time that has passed, and points before the reference are offered
(`fromLeapSecond_before_start`).
-/

namespace ProbeAgent.Periodic

/-- A run that is wanted from the reference on: a point of the grid, more than a second after the
last run. -/
structure Wanted (anchor : Instant) (step : Int) (last : Option Instant)
    (reference t : Instant) : Prop where
  onGrid : OnGrid anchor step t
  from_reference : reference ≤ t
  after_last : ∀ w, last = some w → nanosPerSecond < t.since w

/-- A whole number of milliseconds leads from the anchor to the reference. -/
def MillisAfter (anchor reference : Instant) : Prop :=
  ∃ millis : Nat, anchor.add? (millis * nanosPerMilli) = some reference

/-- The time that has passed since the anchor does not leave out a leap second. -/
def CountsLeap (anchor reference : Instant) : Prop :=
  anchor.isLeap = true →
    reference.second = anchor.second ∨ anchor.secondOfDay < reference.secondOfDay

section

variable {p : Periodic} {anchor reference t w point : Instant} {last : Option Instant}
variable {step millis k : Int}

/-! ## Counting in milliseconds -/

theorem counts_iff_le (hpos : 0 < millis) (hstep : step = millis * nanosPerMilli)
    (href : reference ≤ anchor ∨ MillisAfter anchor reference ∧ CountsLeap anchor reference)
    (hpoint : anchor.add? (k * step) = some t) :
    Counts anchor reference millis k ↔ 0 ≤ k ∧ reference ≤ t := by
  have hsteppos : 0 < step := hstep ▸ Int.mul_pos hpos (by decide)
  unfold Counts
  by_cases hlt : anchor < reference
  · rw [if_pos hlt]
    obtain ⟨⟨m, hm⟩, hleap⟩ := href.resolve_left (Instant.not_le.2 hlt)
    have hnonneg : 0 ≤ (m : Int) * nanosPerMilli := Int.mul_nonneg (by omega) (by decide)
    have hforward := (Instant.forward_zero anchor).mono hnonneg
    have helapsed : (reference.since anchor).tdiv nanosPerMilli = m := by
      rw [Instant.since_of_add? hnonneg hm hleap]
      exact Int.mul_tdiv_cancel _ (by decide)
    have hspan : k * step = k * millis * nanosPerMilli := by
      rw [hstep, Int.mul_assoc]
    rw [helapsed]
    constructor
    · intro hle
      have hk : 0 ≤ k := by
        by_contra hneg
        have := Int.mul_neg_of_neg_of_pos (show k < 0 by omega) hpos
        omega
      have hspans : m * nanosPerMilli ≤ k * step := by
        rw [hspan]
        exact Int.mul_le_mul_of_nonneg_right hle (by decide)
      exact ⟨hk, Instant.le_of_add?_le hforward hspans hm hpoint⟩
    · rintro ⟨hk, hle⟩
      by_contra hless
      -- A point with too small a number is reached before the reference.
      have hspans : k * step < m * nanosPerMilli := by
        rw [hspan]
        exact Int.mul_lt_mul_of_pos_right (by omega) (by decide)
      have hforward' := (Instant.forward_zero anchor).mono (Int.mul_nonneg hk (Int.le_of_lt hsteppos))
      have hrest := Instant.add?_add (b := m * nanosPerMilli - k * step) hforward' (by omega) hpoint
      rw [show k * step + (m * nanosPerMilli - k * step) = m * nanosPerMilli by omega, hm] at hrest
      exact Instant.not_le.2 (Instant.lt_of_add? hrest (by omega)) hle
  · rw [if_neg hlt]
    rw [← Instant.not_le, Classical.not_not] at hlt
    refine ⟨fun hk => ⟨hk, Instant.le_trans hlt ?_⟩, fun h => h.1⟩
    exact Instant.le_of_add?_le (Instant.forward_zero anchor)
      (Int.mul_nonneg hk (Int.le_of_lt hsteppos)) (Instant.add?_zero anchor) hpoint

theorem exists_counts_iff_le (hpos : 0 < millis) (hstep : step = millis * nanosPerMilli)
    (href : reference ≤ anchor ∨ MillisAfter anchor reference ∧ CountsLeap anchor reference) :
    (∃ k, Counts anchor reference millis k ∧ anchor.add? (k * step) = some t) ↔
      OnGrid anchor step t ∧ reference ≤ t := by
  constructor
  · rintro ⟨k, hcounts, hpoint⟩
    obtain ⟨hk, hle⟩ := (counts_iff_le hpos hstep href hpoint).1 hcounts
    obtain ⟨n, rfl⟩ := Int.eq_ofNat_of_zero_le hk
    exact ⟨⟨n, hpoint⟩, hle⟩
  · rintro ⟨⟨n, hpoint⟩, hle⟩
    exact ⟨n, (counts_iff_le hpos hstep href hpoint).2 ⟨Int.natCast_nonneg n, hle⟩, hpoint⟩

theorem nextRunFrom_isFirst_wanted (hstep : p.step? = some step)
    (hanchor : p.anchor? last = some anchor)
    (href : reference ≤ anchor ∨ MillisAfter anchor reference ∧ CountsLeap anchor reference) :
    IsFirst (fun t => Wanted anchor step last reference t ∧
        ∀ finish, p.window.finish = some finish → t ≤ finish)
      (p.nextRunFrom last reference) := by
  obtain ⟨hpos, hmillis⟩ := step?_eq_millis hstep
  refine (p.nextRunFrom_isFirst_mayRun last reference).congr fun t => ?_
  rw [mayRun_iff hstep hanchor, exists_counts_iff_le hpos hmillis href]
  constructor
  · rintro ⟨⟨⟨hgrid, hle⟩, hfar⟩, hfinish⟩
    exact ⟨⟨hgrid, hle, hfar⟩, hfinish⟩
  · rintro ⟨⟨hgrid, hle, hfar⟩, hfinish⟩
    exact ⟨⟨⟨hgrid, hle⟩, hfar⟩, hfinish⟩

/-! ## The loop -/

/-- The loop that passes the last run: after so many rounds it has found a run, or the dates have run
out. -/
inductive Passes (last : Instant) (step : Int) :
    (run : Instant) → (rounds : Nat) → (found : Option Instant) → Prop where
  | found {run} (hfar : nanosPerSecond < run.since last) : Passes last step run 0 (some run)
  | lost {run} (hclose : run.since last ≤ nanosPerSecond) (hnone : run.add? step = none) :
      Passes last step run 1 none
  | again {run next rounds found} (hclose : run.since last ≤ nanosPerSecond)
      (hnext : run.add? step = some next) (hrest : Passes last step next rounds found) :
      Passes last step run (rounds + 1) found

theorem exists_passes (last : Instant) (pos : 0 < step) (run : Instant) :
    ∃ rounds, Passes last step run rounds (passLast last step pos run) := by
  fun_induction passLast last step pos run with
  | case1 run hclose hnone => exact ⟨1, .lost hclose hnone⟩
  | case2 run hclose next hnext ih =>
    obtain ⟨rounds, hpasses⟩ := ih
    exact ⟨rounds + 1, .again hclose hnext hpasses⟩
  | case3 run hfar => exact ⟨0, .found (by omega)⟩

theorem nextRunFrom_of_last (hstep : p.step? = some step) (hanchor : p.anchor? (some w) = some anchor)
    (hpoint : firstPoint anchor step reference = some point) :
    p.nextRunFrom (some w) reference =
      (passLast w step (step?_pos hstep) point).bind p.window.clip := by
  unfold nextRunFrom
  split
  · rename_i hnone
    rw [hstep] at hnone
    contradiction
  · rename_i step' hstep'
    obtain rfl : step = step' := Option.some.inj (hstep.symm.trans hstep')
    rw [← anchor?, hanchor]
    simp only [hpoint, Option.bind_eq_bind, Option.bind_some]

/-! ## The theorem -/

/-- From a reference in whole milliseconds on, a grid that has an anchor offers the least run that is
wanted, if that is not past the end, and none otherwise.  It finds it in finitely many rounds. -/
theorem nextRunFrom_iff_isLeast_wanted (hlow : 1 ≤ p.interval.toNat)
    (hhigh : p.interval.toNat ≤ maxInterval) (hanchor : p.anchor? last = some anchor)
    (href : reference ≤ anchor ∨ MillisAfter anchor reference ∧ CountsLeap anchor reference) :
    let step : Int := p.interval.toNat * nanosPerMilli
    (∀ t, p.nextRunFrom last reference = some t ↔
      IsLeast {u | Wanted anchor step last reference u} t ∧
        ∀ finish, p.window.finish = some finish → t ≤ finish) ∧
    (p.nextRunFrom last reference = none ↔
      ∀ t, Wanted anchor step last reference t →
        ∃ finish, p.window.finish = some finish ∧ finish < t) ∧
    ∀ w point, last = some w → firstPoint anchor step reference = some point →
      ∃ rounds found, Passes w step point rounds found ∧
        p.nextRunFrom last reference = found.bind p.window.clip := by
  intro step
  have hstep : p.step? = some step := step?_eq_some hlow hhigh
  have hfirst := nextRunFrom_isFirst_wanted hstep hanchor href
  refine ⟨fun t => ?_, ?_, ?_⟩
  · rw [hfirst.eq_some_iff (fun a b => Instant.le_antisymm) t]
    constructor
    · rintro ⟨⟨hwanted, hfinish⟩, hleast⟩
      refine ⟨⟨hwanted, fun u hu => ?_⟩, hfinish⟩
      -- Of a point past the end, the least one is not later either.
      by_contra hless
      have hle := Instant.le_of_lt (Instant.not_le.1 hless)
      exact hless (hleast ⟨hu, fun finish hf => Instant.le_trans hle (hfinish finish hf)⟩)
    · rintro ⟨⟨hwanted, hleast⟩, hfinish⟩
      exact ⟨⟨hwanted, hfinish⟩, fun u hu => hleast hu.1⟩
  · rw [hfirst.eq_none_iff]
    refine forall_congr' fun t => ?_
    rw [not_and, not_forall]
    refine imp_congr_right fun _ => exists_congr fun finish => ?_
    rw [Classical.not_imp, Instant.not_le]
  · rintro w point rfl hpoint
    obtain ⟨rounds, hpasses⟩ := exists_passes w (step?_pos hstep) point
    exact ⟨rounds, _, hpasses, nextRunFrom_of_last hstep hanchor hpoint⟩

end

/-- Every 400 milliseconds from the beginning of 2027 on. -/
def fourTenthsFrom2027 : Periodic where
  window := ⟨some ⟨1798761600, 0, by decide, by decide⟩, none⟩
  interval := 400

/-- The last run was 2.1 seconds after the start and the reference is before it.  The point 2.8
seconds after the start is too close to that run, so the next one is offered. -/
theorem fourTenthsFrom2027_passes :
    IsLeast {u | Wanted ⟨1798761600, 0, by decide, by decide⟩ 400000000
        (some ⟨1798761602, 100000000, by decide, by decide⟩)
        ⟨1798761600, 700000000, by decide, by decide⟩ u}
      ⟨1798761603, 200000000, by decide, by decide⟩ ∧
    ∃ rounds, Passes ⟨1798761602, 100000000, by decide, by decide⟩ 400000000
      ⟨1798761600, 800000000, by decide, by decide⟩ rounds
      (some ⟨1798761603, 200000000, by decide, by decide⟩) := by
  have hfound : fourTenthsFrom2027.nextRunFrom (some ⟨1798761602, 100000000, by decide, by decide⟩)
      ⟨1798761600, 700000000, by decide, by decide⟩ =
        some ⟨1798761603, 200000000, by decide, by decide⟩ := by
    decide +kernel
  have hanchor : fourTenthsFrom2027.anchor?
      (some ⟨1798761602, 100000000, by decide, by decide⟩) =
        some ⟨1798761600, 0, by decide, by decide⟩ := rfl
  have hmillis : MillisAfter ⟨1798761600, 0, by decide, by decide⟩
      ⟨1798761600, 700000000, by decide, by decide⟩ := ⟨700, by decide +kernel⟩
  have hleap : CountsLeap ⟨1798761600, 0, by decide, by decide⟩
      ⟨1798761600, 700000000, by decide, by decide⟩ := fun _ => .inl rfl
  obtain ⟨hsome, -, hloop⟩ := nextRunFrom_iff_isLeast_wanted (p := fourTenthsFrom2027)
    (by decide) (by decide) hanchor (.inr ⟨hmillis, hleap⟩)
  refine ⟨((hsome _).1 hfound).1, ?_⟩
  obtain ⟨rounds, found, hpasses, heq⟩ := hloop _ ⟨1798761600, 800000000, by decide, by decide⟩
    rfl (by decide +kernel)
  obtain ⟨run, rfl, hclip⟩ := Option.bind_eq_some_iff.1 (heq.symm.trans hfound)
  obtain ⟨rfl, -⟩ := Window.clip_eq_some hclip
  exact ⟨rounds, hpasses⟩

/-- Every 100 milliseconds from the middle of a leap second on. -/
def fromLeapSecond : Periodic where
  window := ⟨some ⟨1483228799, 1500000000, by decide, by decide⟩, none⟩
  interval := 100

/-- Half a second after the start, which is a point of the grid, a run half a second before the start
is offered. -/
theorem fromLeapSecond_before_start :
    OnGrid ⟨1483228799, 1500000000, by decide, by decide⟩ 100000000
        ⟨1483228800, 0, by decide, by decide⟩ ∧
      MillisAfter ⟨1483228799, 1500000000, by decide, by decide⟩
        ⟨1483228800, 0, by decide, by decide⟩ ∧
      fromLeapSecond.nextRunFrom none ⟨1483228800, 0, by decide, by decide⟩ =
        some ⟨1483228799, 1000000000, by decide, by decide⟩ ∧
      (⟨1483228799, 1000000000, by decide, by decide⟩ : Instant) <
        ⟨1483228799, 1500000000, by decide, by decide⟩ ∧
      ¬ Wanted ⟨1483228799, 1500000000, by decide, by decide⟩ 100000000 none
        ⟨1483228800, 0, by decide, by decide⟩ ⟨1483228799, 1000000000, by decide, by decide⟩ := by
  refine ⟨⟨5, by decide +kernel⟩, ⟨500, by decide +kernel⟩, by decide +kernel, by decide, ?_⟩
  intro hwanted
  exact absurd hwanted.from_reference (by decide)

end ProbeAgent.Periodic
