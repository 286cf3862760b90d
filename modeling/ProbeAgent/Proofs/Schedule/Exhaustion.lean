import ProbeAgent.Proofs.Schedule.Grid
import ProbeAgent.Proofs.Schedule.Timing

/-!
# Schedules that run out of dates

A timing answers with the first run that its schedule still allows, and with nothing if there is
none, also when that is because the years that have dates are over.  Calendars are the exception: in
the last two seconds of all they may fail instead (`nextRunFrom_answers_iff`).  Leap seconds are no
exception anywhere here.
-/

namespace ProbeAgent

theorem Checked.ofOption_eq_error_iff {α : Type} {x : Option α} {e : DateOverflow} :
    Checked.ofOption x = .error e ↔ x = none := by
  cases e
  cases x <;> simp [Checked.ofOption, throw, throwThe, MonadExceptOf.throw, pure, Except.pure]

/-! ## Calendars -/

namespace Calendar

variable {c : Calendar} {last : Option Instant} {reference first : Instant}

theorem isFirstSecond_unique {other : Instant} (h : c.IsFirstSecond reference first)
    (h' : c.IsFirstSecond reference other) : first = other :=
  Instant.le_antisymm (h.2 h'.1) (h'.2 h.1)

theorem firstSecond_eq_error_iff {e : DateOverflow} :
    c.firstSecond reference = .error e ↔ reference.InLastFraction ∨
      ∃ start, c.window.start = some start ∧ start.InLastFraction := by
  unfold firstSecond
  cases ha : reference.ceil? with
  | none =>
    have href := Instant.ceil?_eq_none_iff.1 ha
    simp [href, bind, Except.bind, Checked.ofOption, throw, throwThe, MonadExceptOf.throw]
  | some a =>
    have href : ¬ reference.InLastFraction := by
      rw [← Instant.ceil?_eq_none_iff, ha]
      simp
    cases hs : c.window.start with
    | none => simp [href, bind, Except.bind, Checked.ofOption, pure, Except.pure]
    | some start =>
      show (if a < start then Checked.ofOption start.ceil? else Except.ok a) = Except.error e ↔ _
      by_cases hlt : a < start
      · rw [if_pos hlt, Checked.ofOption_eq_error_iff, Instant.ceil?_eq_none_iff]
        simp [href]
      · -- The start is not after a whole second, so a whole second is left after it.
        have hstart : ¬ start.InLastFraction := by
          intro hlast
          apply Instant.not_le_of_inLastFraction hlast (Instant.isLeast_of_ceil? ha).1.1
          rwa [← Instant.not_le, Classical.not_not] at hlt
        rw [if_neg hlt]
        simp [href, hstart]

/-- Why a calendar may fail: the reference or the start of the window has no whole second at or
after it, or there are no two seconds left to pass over after a last run that stands in the way. -/
inductive Overflows (c : Calendar) (last : Option Instant) (reference : Instant) : Prop where
  | reference (hset : c.hasEmptyField = false) (h : reference.InLastFraction)
  | start {start : Instant} (hset : c.hasEmptyField = false) (hstart : c.window.start = some start)
      (h : start.InLastFraction)
  | lastRun {w first t : Instant} (hlast : last = some w) (hlate : maxSecond < w.second + 2)
      (hfirst : c.IsFirstSecond reference first) (hmatch : c.Matches t) (hle : first ≤ t)
      (hyear : t.year ≤ first.year + 2)

/-- A run that the calendar may offer. -/
def MayRun (c : Calendar) (last : Option Instant) (reference t : Instant) : Prop :=
  ∃ first, c.IsFirstSecond reference first ∧ c.Offers last first t

theorem mayRun_iff (hfirst : c.IsFirstSecond reference first) {t : Instant} :
    c.MayRun last reference t ↔ c.Offers last first t := by
  constructor
  · rintro ⟨other, hother, hoffers⟩
    rwa [isFirstSecond_unique hfirst hother]
  · intro hoffers
    exact ⟨first, hfirst, hoffers⟩

theorem not_overflows_of_hasEmptyField (hempty : c.hasEmptyField = true) :
    ¬ c.Overflows last reference := by
  intro h
  cases h with
  | reference hset => simp [hempty] at hset
  | start hset => simp [hempty] at hset
  | lastRun _ _ _ hmatch => exact not_matches_of_hasEmptyField hempty _ hmatch

-- With a first second, only the last run can be in the way.
theorem overflows_iff_lastRun (hfirst : c.firstSecond reference = .ok first) :
    c.Overflows last reference ↔ ∃ w t, last = some w ∧ maxSecond < w.second + 2 ∧
      c.Matches t ∧ first ≤ t ∧ t.year ≤ first.year + 2 := by
  have hok (e : DateOverflow) : c.firstSecond reference ≠ .error e := by
    rw [hfirst]
    simp
  constructor
  · intro h
    cases h with
    | reference _ h => exact absurd (firstSecond_eq_error_iff.2 (.inl h)) (hok .yearOutOfRange)
    | start _ hstart h =>
      exact absurd (firstSecond_eq_error_iff.2 (.inr ⟨_, hstart, h⟩)) (hok .yearOutOfRange)
    | lastRun hlast hlate hother hmatch hle hyear =>
      cases isFirstSecond_unique hother (isFirstSecond_of_firstSecond hfirst)
      exact ⟨_, _, hlast, hlate, hmatch, hle, hyear⟩
  · rintro ⟨w, t, hlast, hlate, hmatch, hle, hyear⟩
    exact .lastRun hlast hlate (isFirstSecond_of_firstSecond hfirst) hmatch hle hyear

-- No two seconds are left after the last run, so every match from the first second on is too close
-- to it, and the search cannot go on.
theorem nextRunFrom_late {w : Instant} (hset : c.hasEmptyField = false)
    (hfirst : c.firstSecond reference = .ok first) (hlate : maxSecond < w.second + 2) :
    ((∃ t, c.Matches t ∧ first ≤ t ∧ t.year ≤ first.year + 2) ∧
        c.nextRunFrom (some w) reference = .error .yearOutOfRange) ∨
      ((∀ t, ¬ (c.Matches t ∧ first ≤ t ∧ t.year ≤ first.year + 2)) ∧
        c.nextRunFrom (some w) reference = .ok none) := by
  have hsearch := c.earliestFrom_isFirst (whole_of_firstSecond hfirst) (first.year + lookaheadYears)
  rw [nextRunFrom, hset, if_neg (by decide), hfirst]
  simp only [bind, Except.bind]
  cases hfound : c.earliestFrom first (first.year + lookaheadYears) with
  | none =>
    rw [hfound] at hsearch
    exact .inr ⟨hsearch, rfl⟩
  | some run =>
    rw [hfound] at hsearch
    left
    refine ⟨⟨run, hsearch.1⟩, ?_⟩
    have hclose : run.since w ≤ nanosPerSecond := by
      by_contra hfar
      have := Instant.add_two_le_of_lt_since (w := w) hsearch.1.1.whole (by omega)
      have := run.second_mem
      omega
    have hnone : w.truncate.add? (2 * nanosPerSecond) = none := by
      have := w.second_mem
      rw [Instant.truncate_add?, Instant.ofParts?_whole_eq_none_iff (by omega)]
      exact hlate
    simp only [if_pos hclose, hnone]
    rfl

/-- Either the calendar fails, and there is a reason, or it answers with the first run it allows. -/
theorem nextRunFrom_answers (c : Calendar) (last : Option Instant) (reference : Instant) :
    (c.Overflows last reference ∧ c.nextRunFrom last reference = .error .yearOutOfRange) ∨
      (¬ c.Overflows last reference ∧
        ∃ next, c.nextRunFrom last reference = .ok next ∧
          IsFirst (c.MayRun last reference) next) := by
  by_cases hempty : c.hasEmptyField
  · right
    refine ⟨not_overflows_of_hasEmptyField hempty, none, ?_, ?_⟩
    · rw [nextRunFrom, if_pos hempty]
      rfl
    · rintro t ⟨first, -, hoffers⟩
      exact not_matches_of_hasEmptyField hempty t hoffers.isMatch
  have hset : c.hasEmptyField = false := by simpa using hempty
  cases hsecond : c.firstSecond reference with
  | error e =>
    left
    constructor
    · rcases firstSecond_eq_error_iff.1 hsecond with h | ⟨start, hstart, h⟩
      · exact .reference hset h
      · exact .start hset hstart h
    · cases e
      rw [nextRunFrom, if_neg hempty, hsecond]
      rfl
  | ok first =>
    have hfirst := isFirstSecond_of_firstSecond hsecond
    rw [overflows_iff_lastRun hsecond]
    by_cases hroom : ∀ w, last = some w → w.second + 2 ≤ maxSecond
    · right
      obtain ⟨next, hnext, hisFirst⟩ := c.nextRunFrom_isFirst_offers hfirst hroom
      refine ⟨?_, next, hnext, hisFirst.congr fun t => (mayRun_iff hfirst).symm⟩
      rintro ⟨w, t, hlast, hlate, -⟩
      have := hroom w hlast
      omega
    · simp only [not_forall, not_le] at hroom
      obtain ⟨w, rfl, hlate⟩ := hroom
      rcases nextRunFrom_late hset hsecond hlate with ⟨⟨t, ht⟩, herror⟩ | ⟨hnone, hnext⟩
      · left
        exact ⟨⟨w, t, rfl, hlate, ht⟩, herror⟩
      · right
        refine ⟨?_, none, hnext, ?_⟩
        · rintro ⟨-, t, -, -, ht⟩
          exact hnone t ht
        · intro t ht
          have hoffers := (mayRun_iff hfirst).1 ht
          exact hnone t ⟨hoffers.isMatch, hoffers.from_first, hoffers.year_le⟩

end Calendar

/-! ## Timings -/

namespace Timing

/-- Why a timing may fail: only calendars do. -/
def Overflows (t : Timing) (reference : Instant) : Prop :=
  ∃ c, t.schedule = .calendar c ∧ c.Overflows t.lastRun reference

/-- A run that the timing may offer. -/
inductive MayRun (t : Timing) (reference : Instant) : Instant → Prop where
  | immediate (hs : t.schedule = .immediate) (hlast : t.lastRun = none) :
      MayRun t reference reference
  | periodic {p : Periodic} {run : Instant} (hs : t.schedule = .periodic p)
      (hrun : p.MayRun t.lastRun reference run) : MayRun t reference run
  | calendar {c : Calendar} {run : Instant} (hs : t.schedule = .calendar c)
      (hrun : c.MayRun t.lastRun reference run) : MayRun t reference run

variable {t : Timing} {reference : Instant}

theorem overflows_iff_of_calendar {c : Calendar} (hs : t.schedule = .calendar c) :
    t.Overflows reference ↔ c.Overflows t.lastRun reference := by
  simp [Overflows, hs]

theorem mayRun_iff_of_immediate {run : Instant} (hs : t.schedule = .immediate) :
    t.MayRun reference run ↔ t.lastRun = none ∧ run = reference := by
  constructor
  · intro h
    cases h <;> simp_all
  · rintro ⟨hlast, rfl⟩
    exact .immediate hs hlast

theorem mayRun_iff_of_periodic {p : Periodic} {run : Instant} (hs : t.schedule = .periodic p) :
    t.MayRun reference run ↔ p.MayRun t.lastRun reference run := by
  constructor
  · intro h
    cases h <;> simp_all
  · exact .periodic hs

theorem mayRun_iff_of_calendar {c : Calendar} {run : Instant} (hs : t.schedule = .calendar c) :
    t.MayRun reference run ↔ c.MayRun t.lastRun reference run := by
  constructor
  · intro h
    cases h <;> simp_all
  · exact .calendar hs

theorem nextRunFrom_answers (t : Timing) (reference : Instant) :
    (t.Overflows reference ∧ t.nextRunFrom reference = .error .yearOutOfRange) ∨
      (¬ t.Overflows reference ∧
        ∃ next, t.nextRunFrom reference = .ok next ∧ IsFirst (t.MayRun reference) next) := by
  cases hs : t.schedule with
  | immediate =>
    right
    refine ⟨by simp [Overflows, hs], _, nextRunFrom_immediate hs reference, ?_⟩
    refine IsFirst.congr ?_ fun run => (mayRun_iff_of_immediate hs).symm
    cases t.lastRun with
    | none => exact ⟨⟨rfl, rfl⟩, fun run hrun => hrun.2 ▸ Instant.le_refl reference⟩
    | some w => simp [IsFirst]
  | periodic p =>
    right
    refine ⟨by simp [Overflows, hs], _, nextRunFrom_periodic hs reference, ?_⟩
    exact (p.nextRunFrom_isFirst_mayRun t.lastRun reference).congr fun run =>
      (mayRun_iff_of_periodic hs).symm
  | calendar c =>
    rw [overflows_iff_of_calendar hs, nextRunFrom_calendar hs]
    rcases c.nextRunFrom_answers t.lastRun reference with herror | ⟨hnot, next, hnext, hfirst⟩
    · exact .inl herror
    · right
      exact ⟨hnot, next, hnext, hfirst.congr fun run => (mayRun_iff_of_calendar hs).symm⟩

theorem nextRunFrom_eq_error_iff :
    t.nextRunFrom reference = .error .yearOutOfRange ↔ t.Overflows reference := by
  rcases t.nextRunFrom_answers reference with ⟨hover, herror⟩ | ⟨hnot, next, hok, -⟩
  · simp [hover, herror]
  · simp [hnot, hok]

theorem nextRunFrom_eq_ok_iff (next : Option Instant) :
    t.nextRunFrom reference = .ok next ↔
      ¬ t.Overflows reference ∧ IsFirst (t.MayRun reference) next := by
  rcases t.nextRunFrom_answers reference with ⟨hover, herror⟩ | ⟨hnot, next', hok, hfirst⟩
  · simp [hover, herror]
  · rw [hok, Except.ok.injEq]
    constructor
    · rintro rfl
      exact ⟨hnot, hfirst⟩
    · rintro ⟨-, hnext⟩
      cases next with
      | none => exact hfirst.eq_none_iff.2 hnext
      | some run =>
        exact (hfirst.eq_some_iff (fun a b => Instant.le_antisymm) run).2 hnext

theorem hasNextRun_eq_error_iff :
    t.hasNextRun reference = .error .yearOutOfRange ↔ t.Overflows reference := by
  rw [← nextRunFrom_eq_error_iff, hasNextRun]
  cases t.nextRunFrom reference <;> simp

theorem hasNextRun_eq_false_iff :
    t.hasNextRun reference = .ok false ↔ t.nextRunFrom reference = .ok none := by
  rw [hasNextRun]
  cases t.nextRunFrom reference <;> simp

/-- A timing fails for the reasons in `Overflows` alone.  Otherwise it answers with the first run
that it may offer, and with nothing if there is none.  Taking a run at an instant fails, or says that
no run is left, in the same way. -/
theorem nextRunFrom_answers_iff (t : Timing) (reference : Instant) :
    (t.nextRunFrom reference = .error .yearOutOfRange ↔ t.Overflows reference) ∧
      (∀ run, t.nextRunFrom reference = .ok (some run) ↔
        ¬ t.Overflows reference ∧ IsLeast {u | t.MayRun reference u} run) ∧
      (t.nextRunFrom reference = .ok none ↔
        ¬ t.Overflows reference ∧ ∀ run, ¬ t.MayRun reference run) ∧
      ((t.ranAt reference).hasNextRun reference = .error .yearOutOfRange ↔
        (t.ranAt reference).Overflows reference) ∧
      ((t.ranAt reference).hasNextRun reference = .ok false ↔
        ¬ (t.ranAt reference).Overflows reference ∧
          ∀ run, ¬ (t.ranAt reference).MayRun reference run) := by
  refine ⟨nextRunFrom_eq_error_iff, ?_, ?_, hasNextRun_eq_error_iff, ?_⟩
  · intro run
    exact nextRunFrom_eq_ok_iff (some run)
  · exact nextRunFrom_eq_ok_iff none
  · rw [hasNextRun_eq_false_iff]
    exact nextRunFrom_eq_ok_iff none

-- A grid with a point every minute that has its last points in the last minute of all.
example : (Timing.mk (.periodic ⟨⟨some ⟨maxSecond - 59, 0, by decide, by decide⟩, none⟩, 60000⟩)
    (some ⟨maxSecond - 59, 0, by decide, by decide⟩)).nextRunFrom
      ⟨maxSecond - 58, 0, by decide, by decide⟩ = .ok none := by
  decide +kernel

/-- The last second of every year. -/
def yearly : Timing :=
  Schedule.fresh (.calendar { Calendar.everySecond with
    months := .ofList [12], daysOfMonth := .ofList [31], hours := .ofList [23],
    minutes := .ofList [59], seconds := .ofList [59] })

/-- In the last second of all, a run is offered at its beginning.  From half a second later on, and
once that run has been taken, the timing fails instead of having no run. -/
theorem yearly_overflows :
    yearly.nextRunFrom ⟨maxSecond, 0, by decide, by decide⟩ =
        .ok (some ⟨maxSecond, 0, by decide, by decide⟩) ∧
      yearly.nextRunFrom ⟨maxSecond, 500000000, by decide, by decide⟩ =
        .error .yearOutOfRange ∧
      (yearly.ranAt ⟨maxSecond, 0, by decide, by decide⟩).hasNextRun
        ⟨maxSecond, 0, by decide, by decide⟩ = .error .yearOutOfRange := by
  decide +kernel

end Timing

end ProbeAgent
