import ProbeAgent.Proofs.Schedule.CatchUp

/-!
# Next runs and the reference

A next run is not before the start of the window, and it is not before the reference, with one
exception (`nextRunFrom_bounds`): a periodic timing counts the time from its anchor to the reference
in whole milliseconds, so it offers a point of its grid that the reference has passed by less than
one.  If this time leaves out a leap second, a point may be offered that the reference has passed by
about a second, also one before the start.
-/

namespace ProbeAgent

/-! ## Calendars -/

theorem Calendar.firstSecond_le_of_nextRunFrom {c : Calendar} {last : Option Instant}
    {reference run : Instant} (h : c.nextRunFrom last reference = .ok (some run)) :
    ∃ first, c.IsFirstSecond reference first ∧ first ≤ run := by
  obtain ⟨first, point, found, hfirst, hpoint, hclip, hfound⟩ := nextRunFrom_cases h
  have hisFirst := isFirstSecond_of_firstSecond hfirst
  have hsearch := c.earliestFrom_isFirst hisFirst.1.1 (first.year + lookaheadYears)
  rw [hpoint] at hsearch
  refine ⟨first, hisFirst, ?_⟩
  rw [(Window.clip_eq_some hclip).1]
  rcases hfound with ⟨rfl, -⟩ | ⟨w, second, -, hclose, hsecond, hfound⟩
  · exact hsearch.1.2.1
  · -- The second search starts where the first one has found something, or later.
    rw [Instant.truncate_add?] at hsecond
    obtain ⟨hsec, hnano⟩ := Instant.ofParts?_eq_some hsecond
    have hsearch' := c.earliestFrom_isFirst hnano (first.year + lookaheadYears)
    rw [hfound] at hsearch'
    have hwhole := hsearch.1.1.whole
    have hpointle := Instant.second_le_of_whole hwhole hclose
    have hle : point ≤ second := by
      rw [Instant.le_iff_of_whole hwhole hnano]
      omega
    exact Instant.le_trans hsearch.1.2.1 (Instant.le_trans hle hsearch'.1.2.1)

/-! ## Periodic timings -/

/-- A point of the grid that the reference has passed by less than a millisecond, while the last run
does not rule it out. -/
structure Periodic.JustPassed (last : Option Instant) (anchor : Instant) (step : Int)
    (reference point : Instant) : Prop where
  onGrid : Periodic.OnGrid anchor step point
  passed : point < reference
  just : reference.since point < nanosPerMilli
  after_last : ∀ w, last = some w → nanosPerSecond < point.since w

namespace Periodic

/-- The time from the anchor to the reference does not leave out a leap second of either. -/
structure CountsLeaps (anchor reference : Instant) : Prop where
  ofAnchor : CountsLeap anchor reference
  ofReference : reference.isLeap = true → anchor.secondOfDay ≤ reference.secondOfDay

theorem countsLeaps_of_not_leap {anchor reference : Instant} (hanchor : anchor.isLeap = false)
    (href : reference.isLeap = false) : CountsLeaps anchor reference where
  ofAnchor h := by
    rw [hanchor] at h
    contradiction
  ofReference h := by
    rw [href] at h
    contradiction

section

variable {p : Periodic} {anchor reference point : Instant} {step millis k : Int}

theorem nonneg_of_counts (hpos : 0 < millis)
    (hleap : anchor < reference → CountsLeaps anchor reference)
    (hcounts : Counts anchor reference millis k) : 0 ≤ k := by
  unfold Counts at hcounts
  split at hcounts
  · rename_i hlt
    have hsince := Instant.since_nonneg hlt (hleap hlt).ofAnchor (hleap hlt).ofReference
    have helapsed := Int.tdiv_nonneg hsince (show 0 ≤ nanosPerMilli by decide)
    by_contra hneg
    have hless := Int.mul_neg_of_neg_of_pos (Int.not_le.1 hneg) hpos
    omega
  · exact hcounts

/-- Of the points before the reference those count that it has passed by less than a millisecond. -/
theorem counts_iff_since_lt (hpos : 0 < millis) (hstep : step = millis * nanosPerMilli)
    (hleap : anchor < reference → CountsLeaps anchor reference) {n : Nat}
    (hpoint : anchor.add? (n * step) = some point) (hpassed : point < reference) :
    Counts anchor reference millis n ↔ reference.since point < nanosPerMilli := by
  have hspan : n * step = n * millis * nanosPerMilli := by
    rw [hstep, Int.mul_assoc]
  have hsteppos : 0 < step := hstep ▸ Int.mul_pos hpos (by decide)
  have hlt : anchor < reference := Instant.not_le.1 fun hle =>
    Instant.not_le.2 hpassed (Instant.le_trans hle (le_of_onGrid hsteppos ⟨n, hpoint⟩))
  obtain ⟨hanchor, href⟩ := hleap hlt
  have hsince := Instant.since_nonneg hlt hanchor href
  have hnonneg : 0 ≤ n * step := Int.mul_nonneg (Int.natCast_nonneg n) (Int.le_of_lt hsteppos)
  rw [Instant.since_lt_iff_of_add? (by decide) hnonneg hpoint hpassed hanchor href]
  unfold Counts
  rw [if_pos hlt, Int.tdiv_eq_ediv_of_nonneg hsince, hspan]
  simp only [nanosPerMilli]
  omega

theorem reference_le_iff {last : Option Instant} {run : Instant}
    (hanchor : p.anchor? last = some anchor) (hstep : p.step? = some step)
    (hleap : anchor < reference → CountsLeaps anchor reference)
    (hrun : p.nextRunFrom last reference = some run) :
    anchor ≤ run ∧
      (reference ≤ run ↔ ∀ point, ¬ JustPassed last anchor step reference point) := by
  obtain ⟨hpos, hmillis⟩ := step?_eq_millis hstep
  have hfirst := p.nextRunFrom_isFirst_mayRun last reference
  rw [hrun] at hfirst
  obtain ⟨hmay, hleast⟩ := hfirst
  obtain ⟨⟨⟨k, hcounts, hpoint⟩, hfar⟩, hfinish⟩ := (mayRun_iff hstep hanchor).1 hmay
  obtain ⟨n, rfl⟩ := Int.eq_ofNat_of_zero_le (nonneg_of_counts hpos hleap hcounts)
  have hgrid : OnGrid anchor step run := ⟨n, hpoint⟩
  refine ⟨le_of_onGrid (step?_pos hstep) hgrid, ?_⟩
  constructor
  · -- Such a point would be wanted, and earlier than the run.
    intro hle point hjust
    obtain ⟨m, hm⟩ := hjust.onGrid
    have hcountsm := (counts_iff_since_lt hpos hmillis hleap hm hjust.passed).2 hjust.just
    have hpointle := Instant.le_trans (Instant.le_of_lt hjust.passed) hle
    have hrunle : run ≤ point := hleast ((mayRun_iff hstep hanchor).2
      ⟨⟨⟨m, hcountsm, hm⟩, hjust.after_last⟩,
        fun finish hf => Instant.le_trans hpointle (hfinish finish hf)⟩)
    exact Instant.not_le.2 hjust.passed (Instant.le_trans hle hrunle)
  · intro hnone
    by_contra hnot
    have hpassed := Instant.not_le.1 hnot
    have hjust := (counts_iff_since_lt hpos hmillis hleap hpoint hpassed).1 hcounts
    exact hnone run ⟨hgrid, hpassed, hjust, hfar⟩

end

end Periodic

namespace Timing

/-- The reference has just passed a point of the timing's grid. -/
def HasJustPassed (t : Timing) (reference : Instant) : Prop :=
  ∃ p anchor step point, t.schedule = .periodic p ∧ p.anchor? t.lastRun = some anchor ∧
    p.step? = some step ∧ Periodic.JustPassed t.lastRun anchor step reference point

variable {t : Timing} {reference : Instant}

theorem hasJustPassed_iff {p : Periodic} {anchor : Instant} {step : Int}
    (hs : t.schedule = .periodic p) (hanchor : p.anchor? t.lastRun = some anchor)
    (hstep : p.step? = some step) :
    t.HasJustPassed reference ↔
      ∃ point, Periodic.JustPassed t.lastRun anchor step reference point := by
  constructor
  · rintro ⟨p', anchor', step', point, hp, hanchor', hstep', hpoint⟩
    rw [hs] at hp
    cases hp
    rw [hanchor] at hanchor'
    rw [hstep] at hstep'
    cases hanchor'
    cases hstep'
    exact ⟨point, hpoint⟩
  · rintro ⟨point, hpoint⟩
    exact ⟨p, anchor, step, point, hs, hanchor, hstep, hpoint⟩

/-- Without a grid there is no point to pass. -/
theorem not_hasJustPassed (h : ∀ p, t.schedule = .periodic p → p.anchor? t.lastRun = none) :
    ¬ t.HasJustPassed reference := by
  rintro ⟨p, anchor, -, -, hp, hanchor, -⟩
  rw [h p hp] at hanchor
  contradiction

/-- A next run is not before the start, and not before the reference unless that has just passed a
point of the grid.  Leap seconds matter to a periodic timing only: the time from its anchor to a later
reference must not leave one out. -/
theorem nextRunFrom_bounds {t : Timing} {reference run : Instant}
    (hleap : ∀ p anchor, t.schedule = .periodic p → p.anchor? t.lastRun = some anchor →
      anchor < reference → Periodic.CountsLeaps anchor reference)
    (hrun : t.nextRunFrom reference = .ok (some run)) :
    (∀ start, t.schedule.start = some start → start ≤ run) ∧
      (reference ≤ run ↔ ¬ t.HasJustPassed reference) := by
  cases hs : t.schedule with
  | immediate =>
    rw [nextRunFrom_immediate hs] at hrun
    have hnot : ¬ t.HasJustPassed reference := not_hasJustPassed fun p hp => by
      rw [hs] at hp
      contradiction
    split at hrun
    · cases hrun
      exact ⟨fun start hstart => (by cases hstart), fun _ => hnot, fun _ => Instant.le_refl _⟩
    · cases hrun
  | periodic p =>
    rw [nextRunFrom_periodic hs] at hrun
    have hrun' := Except.ok.inj hrun
    rcases Periodic.nextRunFrom_cases hrun' with ⟨hnone, rfl⟩ |
      ⟨anchor, step, point, found, hanchor, hstep, -⟩
    · have hnot : ¬ t.HasJustPassed run := not_hasJustPassed fun p' hp => by
        rw [hs] at hp
        cases hp
        exact hnone
      refine ⟨fun start hstart => ?_, fun _ => hnot, fun _ => Instant.le_refl _⟩
      change p.window.start = some start at hstart
      rw [(Periodic.anchor?_eq_none_iff.1 hnone).1] at hstart
      contradiction
    · obtain ⟨hle, hiff⟩ :=
        Periodic.reference_le_iff hanchor hstep (hleap p anchor hs hanchor) hrun'
      rw [hasJustPassed_iff hs hanchor hstep, not_exists]
      refine ⟨fun start hstart => ?_, hiff⟩
      change p.window.start = some start at hstart
      rw [Periodic.anchor?, hstart] at hanchor
      cases hanchor
      exact hle
  | calendar c =>
    rw [nextRunFrom_calendar hs] at hrun
    have hnot : ¬ t.HasJustPassed reference := not_hasJustPassed fun p hp => by
      rw [hs] at hp
      contradiction
    obtain ⟨first, hfirst, hle⟩ := Calendar.firstSecond_le_of_nextRunFrom hrun
    exact ⟨fun start hstart => Instant.le_trans (hfirst.1.2.2 start hstart) hle, fun _ => hnot,
      fun _ => Instant.le_trans hfirst.1.2.1 hle⟩

/-- Twice a second from the beginning of 2025 on. -/
def everyHalfSecond (lastRun : Option Instant) : Timing :=
  ⟨.periodic ⟨⟨some ⟨1735689600, 0, by decide, by decide⟩, none⟩, 500⟩, lastRun⟩

/-- Half a millisecond after a second that the last run rules out, the next half second is offered. -/
theorem everyHalfSecond_after_run :
    (everyHalfSecond (some ⟨1735689600, 200000000, by decide, by decide⟩)).nextRunFrom
        ⟨1735689601, 500000, by decide, by decide⟩ =
      .ok (some ⟨1735689601, 500000000, by decide, by decide⟩) ∧
    (⟨1735689601, 500000, by decide, by decide⟩ : Instant) ≤
      ⟨1735689601, 500000000, by decide, by decide⟩ ∧
    ¬ (everyHalfSecond (some ⟨1735689600, 200000000, by decide, by decide⟩)).HasJustPassed
      ⟨1735689601, 500000, by decide, by decide⟩ := by
  have hrun : (everyHalfSecond (some ⟨1735689600, 200000000, by decide, by decide⟩)).nextRunFrom
      ⟨1735689601, 500000, by decide, by decide⟩ =
        .ok (some ⟨1735689601, 500000000, by decide, by decide⟩) := by
    decide +kernel
  have hleap : ∀ p anchor,
      (everyHalfSecond (some ⟨1735689600, 200000000, by decide, by decide⟩)).schedule = .periodic p →
      p.anchor? (some ⟨1735689600, 200000000, by decide, by decide⟩) = some anchor →
      anchor < ⟨1735689601, 500000, by decide, by decide⟩ →
        Periodic.CountsLeaps anchor ⟨1735689601, 500000, by decide, by decide⟩ := by
    intro p anchor hp hanchor _
    cases hp
    cases hanchor
    exact Periodic.countsLeaps_of_not_leap rfl rfl
  obtain ⟨-, hiff⟩ := nextRunFrom_bounds hleap hrun
  have hle : (⟨1735689601, 500000, by decide, by decide⟩ : Instant) ≤
      ⟨1735689601, 500000000, by decide, by decide⟩ := by
    decide
  exact ⟨hrun, hle, hiff.1 hle⟩

/-- Half a millisecond after a second, with no last run to rule it out, that second is offered. -/
theorem everyHalfSecond_before_reference :
    (everyHalfSecond none).nextRunFrom ⟨1735689601, 500000, by decide, by decide⟩ =
        .ok (some ⟨1735689601, 0, by decide, by decide⟩) ∧
      ¬ (⟨1735689601, 500000, by decide, by decide⟩ : Instant) ≤
        ⟨1735689601, 0, by decide, by decide⟩ := by
  refine ⟨?_, by decide⟩
  decide +kernel

end Timing

end ProbeAgent
