import ProbeAgent.Proofs.Schedule.Grid
import ProbeAgent.Proofs.Schedule.Timing

/-!
# Occurrences of a schedule

`Schedule.Occurs` says at which instants a schedule has a run, without a search, and
`Schedule.MayFollow` which of them may come after a given run.  A timing that has just run finds the
first that may follow (`nextRunFrom_ranAt`); one that has not run finds an occurrence, if there is
any to find (`nextRunFrom_fresh`).
-/

namespace ProbeAgent

namespace Schedule

/-! ## Occurrences -/

/-- The schedule has a run at this instant, wherever its window ends. -/
def Occurs : Schedule → Instant → Prop
  | immediate, _ => False
  | periodic p, t => ∃ start, p.window.start = some start ∧
      Periodic.OnGrid start (p.interval.toNat * nanosPerMilli) t
  | calendar c, t => c.Matches t ∧ ∀ start, c.window.start = some start → start ≤ t

/-- An occurrence that is not past the end of the window. -/
def Wants (s : Schedule) (t : Instant) : Prop :=
  s.Occurs t ∧ ∀ finish, s.finish = some finish → t ≤ finish

/-- A calendar is searched up to two years after a given one. -/
def WithinReach (s : Schedule) (year : Int) (t : Instant) : Prop :=
  ∀ c, s = calendar c → t.year ≤ year + 2

/-- What may come after a run: more than a second later, and not out of reach. -/
structure MayFollow (s : Schedule) (run t : Instant) : Prop where
  wants : s.Wants t
  reach : s.WithinReach run.year t
  apart : nanosPerSecond < t.since run

/-- Schedules that say when they have runs: calendars, and grids that have a start. -/
def IsTabular (s : Schedule) : Prop :=
  (∃ c, s = calendar c) ∨ ∃ p, s = periodic p ∧ p.window.start.isSome ∧
    1 ≤ p.interval.toNat ∧ p.interval.toNat ≤ Periodic.maxInterval

theorem isLeap_of_occurs {s : Schedule} {t : Instant}
    (hstart : ∀ start, s.start = some start → start.isLeap = false) (h : s.Occurs t) :
    t.isLeap = false := by
  cases s with
  | immediate => exact h.elim
  | periodic p =>
    obtain ⟨start, hs, hgrid⟩ := h
    exact ((Periodic.onGrid_iff (hstart start hs)).1 hgrid).1
  | calendar c => exact Instant.isLeap_of_whole h.1.whole

end Schedule

/-! ## One step -/

namespace Periodic

variable {p : Periodic} {start : Instant}

theorem step?_eq_some (hlow : 1 ≤ p.interval.toNat) (hhigh : p.interval.toNat ≤ maxInterval) :
    p.step? = some (p.interval.toNat * nanosPerMilli) := by
  rw [step?, if_pos ⟨hlow, hhigh⟩]

theorem anchor?_of_start (h : p.window.start = some start) (last : Option Instant) :
    p.anchor? last = some start := by
  rw [anchor?, h]
  rfl

theorem occurs_iff (h : p.window.start = some start) {t : Instant} :
    (Schedule.periodic p).Occurs t ↔ OnGrid start (p.interval.toNat * nanosPerMilli) t := by
  constructor
  · rintro ⟨start', hstart', hgrid⟩
    rw [h] at hstart'
    cases hstart'
    exact hgrid
  · exact fun hgrid => ⟨start, h, hgrid⟩

theorem isFirst_mayFollow (h : p.window.start = some start) (hleap : start.isLeap = false)
    (hlow : 1 ≤ p.interval.toNat) (hhigh : p.interval.toNat ≤ maxInterval) {run : Instant}
    (hrun : (Schedule.periodic p).Occurs run) :
    IsFirst ((Schedule.periodic p).MayFollow run) (p.nextRunFrom (some run) run) := by
  have hrunleap := ((onGrid_iff hleap).1 ((occurs_iff h).1 hrun)).1
  refine (nextRunFrom_isFirst (anchor?_of_start h (some run)) (step?_eq_some hlow hhigh) hleap
    hrunleap).congr fun t => ?_
  constructor
  · rintro ⟨⟨⟨hgrid, -⟩, hfar⟩, hfinish⟩
    exact ⟨⟨(occurs_iff h).2 hgrid, hfinish⟩, fun c hc => by contradiction, hfar run rfl⟩
  · rintro ⟨⟨hoccurs, hfinish⟩, -, hfar⟩
    have hgrid := (occurs_iff h).1 hoccurs
    refine ⟨⟨⟨hgrid, ?_⟩, fun w hw => ?_⟩, hfinish⟩
    · rw [Instant.since_eq_sub ((onGrid_iff hleap).1 hgrid).1 hrunleap] at hfar
      simp only [nanosPerSecond, nanosPerMilli] at hfar ⊢
      omega
    · cases hw
      exact hfar

end Periodic

namespace Calendar

variable {c : Calendar} {run : Instant}

theorem isFirstSecond_of_occurs (h : (Schedule.calendar c).Occurs run) : c.IsFirstSecond run run :=
  ⟨⟨h.1.whole, Instant.le_refl run, h.2⟩, fun _ ht => ht.2.1⟩

theorem allows_iff_mayFollow (h : (Schedule.calendar c).Occurs run) {t : Instant} :
    c.Allows (some run) run t ↔ (Schedule.calendar c).MayFollow run t := by
  constructor
  · rintro ⟨hmatch, hfrom, hyear, hfar, hfinish⟩
    refine ⟨⟨⟨hmatch, fun start hs => Instant.le_trans (h.2 start hs) hfrom⟩, hfinish⟩,
      fun _ _ => hyear, hfar run rfl⟩
  · rintro ⟨⟨⟨hmatch, -⟩, hfinish⟩, hyear, hfar⟩
    have hleap := Instant.isLeap_of_whole hmatch.whole
    have hrunleap := Instant.isLeap_of_whole h.1.whole
    refine ⟨hmatch, ?_, hyear c rfl, fun w hw => ?_, hfinish⟩
    · apply Instant.le_of_lt
      apply Instant.lt_of_since_pos hleap hrunleap
      simp only [nanosPerSecond] at hfar
      omega
    · cases hw
      exact hfar

/-- In the last two seconds of all there is no room to search after a run. -/
theorem nextRunFrom_of_no_room (h : (Schedule.calendar c).Occurs run)
    (hroom : maxSecond < run.second + 2) :
    c.nextRunFrom (some run) run = .error .yearOutOfRange := by
  have hnonempty : ¬ c.hasEmptyField = true := fun hempty =>
    not_matches_of_hasEmptyField hempty run h.1
  have hsearch := c.earliestFrom_isFirst h.1.whole (run.year + lookaheadYears)
  have hfound : c.earliestFrom run (run.year + lookaheadYears) = some run := by
    rw [hsearch.eq_some_iff fun a b => Instant.le_antisymm]
    refine ⟨⟨h.1, Instant.le_refl run, ?_⟩, fun t ht => ht.2.1⟩
    simp only [lookaheadYears]
    omega
  have hleap := Instant.isLeap_of_whole h.1.whole
  have hclose : run.since run ≤ nanosPerSecond := by
    rw [Instant.since_eq_sub hleap hleap]
    simp only [nanosPerSecond]
    omega
  have hnone : run.truncate.add? (2 * nanosPerSecond) = none := by
    rw [Instant.truncate_add?, Instant.ofParts?, dif_neg]
    rintro ⟨⟨-, hmax⟩, -⟩
    omega
  rw [nextRunFrom, if_neg hnonempty, firstSecond_eq (isFirstSecond_of_occurs h)]
  simp only [bind, Except.bind, hfound, if_pos hclose, hnone]
  rfl

end Calendar

namespace Timing

variable {t : Timing} {run reference : Instant}

/-- After a run that was wanted, a timing finds the first instant that may follow it, unless the
dates run out. -/
theorem nextRunFrom_ranAt (htab : t.schedule.IsTabular)
    (hstart : ∀ start, t.schedule.start = some start → start.isLeap = false)
    (hrun : t.schedule.Occurs run) :
    (∃ next, (t.ranAt run).nextRunFrom run = .ok next ∧
      IsFirst (t.schedule.MayFollow run) next) ∨
    ((t.ranAt run).nextRunFrom run = .error .yearOutOfRange ∧
      (∃ c, t.schedule = .calendar c) ∧ maxSecond < run.second + 2) := by
  rcases htab with ⟨c, hc⟩ | ⟨p, hp, hsome, hlow, hhigh⟩
  · have hschedule : (t.ranAt run).schedule = .calendar c := hc
    rw [nextRunFrom_calendar hschedule, ranAt_lastRun, hc]
    rw [hc] at hrun
    by_cases hroom : run.second + 2 ≤ maxSecond
    · have hlast : ∀ w, some run = some w → w.isLeap = false ∧ w.second + 2 ≤ maxSecond := by
        intro w hw
        cases hw
        exact ⟨Instant.isLeap_of_whole hrun.1.whole, hroom⟩
      obtain ⟨next, hnext, hfirst⟩ :=
        c.nextRunFrom_isFirst (Calendar.isFirstSecond_of_occurs hrun) hlast
      exact .inl ⟨next, hnext, hfirst.congr fun u => Calendar.allows_iff_mayFollow hrun⟩
    · have hroom' : maxSecond < run.second + 2 := by omega
      exact .inr ⟨Calendar.nextRunFrom_of_no_room hrun hroom', ⟨c, rfl⟩, hroom'⟩
  · obtain ⟨start, hs⟩ := Option.isSome_iff_exists.1 hsome
    have hschedule : (t.ranAt run).schedule = .periodic p := hp
    rw [nextRunFrom_periodic hschedule, ranAt_lastRun, hp]
    rw [hp] at hrun hstart
    exact .inl ⟨_, rfl, Periodic.isFirst_mayFollow hs (hstart start hs) hlow hhigh hrun⟩

/-- The first run of a timing that has not run is wanted.  If there is none, nothing is wanted from
the reference on, as far as a search reaches. -/
theorem nextRunFrom_fresh (htab : t.schedule.IsTabular) (hfresh : t.lastRun = none)
    (hstart : ∀ start, t.schedule.start = some start → start.isLeap = false)
    (href : reference.isLeap = false) :
    (∃ next, t.nextRunFrom reference = .ok next ∧ (∀ run, next = some run → t.schedule.Wants run) ∧
      (next = none → ∀ u, t.schedule.Wants u → reference ≤ u →
        ¬ ∀ c first, t.schedule = .calendar c → c.IsFirstSecond reference first →
          u.year ≤ first.year + 2)) ∨
    (t.nextRunFrom reference = .error .yearOutOfRange ∧
      ∃ c, t.schedule = .calendar c ∧ ∀ first, ¬ c.IsFirstSecond reference first) := by
  rcases htab with ⟨c, hc⟩ | ⟨p, hp, hsome, hlow, hhigh⟩
  · rw [nextRunFrom_calendar hc, hfresh, hc]
    by_cases hempty : c.hasEmptyField = true
    · -- Nothing matches, so nothing is wanted.
      refine .inl ⟨none, ?_, fun run hrun => by contradiction, fun _ u hu _ _ =>
        Calendar.not_matches_of_hasEmptyField hempty u hu.1.1⟩
      rw [Calendar.nextRunFrom, if_pos hempty]
      rfl
    by_cases hround : ∃ first, c.IsFirstSecond reference first
    · obtain ⟨first, hfirst⟩ := hround
      have hnone : ∀ w, (none : Option Instant) = some w → w.isLeap = false ∧
          w.second + 2 ≤ maxSecond := fun w hw => by contradiction
      obtain ⟨next, hnext, hisFirst⟩ := c.nextRunFrom_isFirst hfirst hnone
      refine .inl ⟨next, hnext, fun run hrun => ?_, fun hnone u hu hle hreach => ?_⟩
      · subst hrun
        have hallows := hisFirst.1
        exact ⟨⟨hallows.isMatch, fun start hs =>
          Instant.le_trans (hfirst.1.2.2 start hs) hallows.from_first⟩, hallows.before_finish⟩
      · subst hnone
        refine hisFirst u ⟨hu.1.1, hfirst.2 ⟨hu.1.1.whole, hle, hu.1.2⟩,
          hreach c first rfl hfirst, fun w hw => by contradiction, hu.2⟩
    · refine .inr ⟨?_, c, rfl, fun first hfirst => hround ⟨first, hfirst⟩⟩
      rw [Calendar.nextRunFrom, if_neg hempty]
      cases hsecond : c.firstSecond reference with
      | ok first => exact absurd ⟨first, Calendar.isFirstSecond_of_firstSecond hsecond⟩ hround
      | error e =>
        cases e
        rfl
  · obtain ⟨start, hs⟩ := Option.isSome_iff_exists.1 hsome
    rw [nextRunFrom_periodic hp, hfresh, hp]
    rw [hp] at hstart
    have hisFirst := Periodic.nextRunFrom_isFirst (Periodic.anchor?_of_start hs none)
      (Periodic.step?_eq_some hlow hhigh) (hstart start hs) href
    refine .inl ⟨_, rfl, fun run hrun => ?_, fun hnone u hu hle _ => ?_⟩
    · rw [hrun] at hisFirst
      exact ⟨(Periodic.occurs_iff hs).2 hisFirst.1.1.1.1, hisFirst.1.2⟩
    · rw [hnone] at hisFirst
      have huleap := Schedule.isLeap_of_occurs hstart hu.1
      rw [Instant.le_iff_nanos_le href huleap] at hle
      refine hisFirst u ⟨⟨⟨(Periodic.occurs_iff hs).1 hu.1, ?_⟩, fun w hw => by contradiction⟩,
        hu.2⟩
      simp only [nanosPerMilli]
      omega

end Timing

end ProbeAgent
