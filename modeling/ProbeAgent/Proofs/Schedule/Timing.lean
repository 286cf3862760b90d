import ProbeAgent.Schedule.Timing
import ProbeAgent.Proofs.Schedule.Calendar
import ProbeAgent.Proofs.Schedule.Periodic

/-!
# Next runs of timings

Two things bound a next run, whatever the schedule: it lies more than a second after the last run,
and it does not lie past the end of the window.  The second has one exception
(`nextRunFrom_le_finish_iff`): a periodic timing that has neither a start nor a last run offers the
reference itself and does not look at the end.
-/

namespace ProbeAgent.Timing

theorem nextRunFrom_immediate {t : Timing} (h : t.schedule = .immediate) (reference : Instant) :
    t.nextRunFrom reference = .ok (if t.lastRun.isNone then some reference else none) := by
  rw [nextRunFrom, h]
  rfl

theorem nextRunFrom_periodic {t : Timing} {p : Periodic} (h : t.schedule = .periodic p)
    (reference : Instant) : t.nextRunFrom reference = .ok (p.nextRunFrom t.lastRun reference) := by
  rw [nextRunFrom, h]
  rfl

theorem nextRunFrom_calendar {t : Timing} {c : Calendar} (h : t.schedule = .calendar c)
    (reference : Instant) : t.nextRunFrom reference = c.nextRunFrom t.lastRun reference := by
  rw [nextRunFrom, h]

/-! ## The last run -/

/-- No date-time of the timing lies in a leap second. -/
structure NoLeap (t : Timing) : Prop where
  start : ∀ s, t.schedule.start = some s → s.isLeap = false
  lastRun : ∀ w, t.lastRun = some w → w.isLeap = false

theorem NoLeap.ranAt {t : Timing} (h : t.NoLeap) {now : Instant} (hnow : now.isLeap = false) :
    (t.ranAt now).NoLeap where
  start := h.start
  lastRun w hw := by
    cases hw
    exact hnow

theorem NoLeap.anchor {t : Timing} (h : t.NoLeap) {p : Periodic} (hs : t.schedule = .periodic p)
    {anchor : Instant} (hanchor : p.anchor? t.lastRun = some anchor) : anchor.isLeap = false := by
  rw [Periodic.anchor?] at hanchor
  cases hstart : p.window.start with
  | none =>
    rw [hstart] at hanchor
    exact h.lastRun anchor hanchor
  | some start =>
    rw [hstart] at hanchor
    cases hanchor
    exact h.start _ (by rw [hs]; exact hstart)

theorem lt_since_of_nextRunFrom {t : Timing} (ht : t.NoLeap) {w reference run : Instant}
    (hw : t.lastRun = some w) (h : t.nextRunFrom reference = .ok (some run)) :
    nanosPerSecond < run.since w := by
  cases hs : t.schedule with
  | immediate =>
    rw [nextRunFrom_immediate hs, hw] at h
    cases h
  | periodic p =>
    rw [nextRunFrom_periodic hs] at h
    rcases Periodic.nextRunFrom_cases (Except.ok.inj h) with ⟨hanchor, -⟩ |
      ⟨anchor, step, point, found, -, -, -, -, hpass, hclip⟩
    · -- The last run would have been the anchor.
      have := (Periodic.anchor?_eq_none_iff.1 hanchor).2
      rw [hw] at this
      contradiction
    · obtain ⟨pos, hfound⟩ := hpass w hw
      rw [(Window.clip_eq_some hclip).1]
      exact Periodic.lt_since_of_passLast hfound
  | calendar c =>
    rw [nextRunFrom_calendar hs, hw] at h
    exact Calendar.lt_since_of_nextRunFrom (ht.lastRun w hw) h

theorem isLeap_of_nextRunFrom {t : Timing} (ht : t.NoLeap) {reference run : Instant}
    (href : reference.isLeap = false) (h : t.nextRunFrom reference = .ok (some run)) :
    run.isLeap = false := by
  cases hs : t.schedule with
  | immediate =>
    rw [nextRunFrom_immediate hs] at h
    split at h
    · cases h
      exact href
    · cases h
  | periodic p =>
    rw [nextRunFrom_periodic hs] at h
    rcases Periodic.nextRunFrom_cases (Except.ok.inj h) with ⟨-, rfl⟩ |
      ⟨anchor, step, point, found, hanchor, -, hpoint, hfresh, hpass, hclip⟩
    · exact href
    · have hleap := ht.anchor hs hanchor
      have hpointLeap := Periodic.isLeap_of_firstPoint hleap hpoint
      rw [(Window.clip_eq_some hclip).1]
      cases hlast : t.lastRun with
      | none =>
        rw [hfresh hlast]
        exact hpointLeap
      | some w =>
        obtain ⟨pos, hfound⟩ := hpass w hlast
        exact Periodic.isLeap_of_passLast hpointLeap hfound
  | calendar c =>
    rw [nextRunFrom_calendar hs] at h
    exact Instant.isLeap_of_whole (Calendar.whole_of_nextRunFrom h)

theorem nextRunFrom_immediate_of_ran {t : Timing} (h : t.schedule = .immediate) {w : Instant}
    (hw : t.lastRun = some w) (reference : Instant) : t.nextRunFrom reference = .ok none := by
  rw [nextRunFrom_immediate h, hw]
  rfl

/-! ## The end of the window -/

/-- Nothing anchors the grid of the timing: it is periodic, has no start and has not run. -/
def IsUnanchored (t : Timing) : Prop :=
  ∃ p, t.schedule = .periodic p ∧ p.window.start = none ∧ t.lastRun = none

/-- A next run does not lie past the end of the window, except that an unanchored timing offers any
reference, also one past the end. -/
theorem nextRunFrom_le_finish_iff {t : Timing} {reference run finish : Instant}
    (hrun : t.nextRunFrom reference = .ok (some run)) (hfinish : t.schedule.finish = some finish) :
    run ≤ finish ↔ (t.IsUnanchored → reference ≤ finish) := by
  cases hs : t.schedule with
  | immediate =>
    rw [hs] at hfinish
    cases hfinish
  | periodic p =>
    rw [hs] at hfinish
    rw [nextRunFrom_periodic hs] at hrun
    rcases Periodic.nextRunFrom_cases (Except.ok.inj hrun) with ⟨hanchor, rfl⟩ |
      ⟨anchor, step, point, found, hanchor, -, -, -, -, hclip⟩
    · -- The run is the reference itself, and the window has not been asked about it.
      have hun : t.IsUnanchored := ⟨p, hs, Periodic.anchor?_eq_none_iff.1 hanchor⟩
      exact ⟨fun h _ => h, fun h => h hun⟩
    · have hle := (Window.clip_eq_some hclip).2 finish hfinish
      refine ⟨fun _ ⟨p', hp', hnone⟩ => ?_, fun _ => hle⟩
      rw [hs] at hp'
      cases hp'
      rw [Periodic.anchor?_eq_none_iff.2 hnone] at hanchor
      contradiction
  | calendar c =>
    rw [hs] at hfinish
    rw [nextRunFrom_calendar hs] at hrun
    obtain ⟨first, point, found, -, -, hclip, -⟩ := Calendar.nextRunFrom_cases hrun
    have hle := (Window.clip_eq_some hclip).2 finish hfinish
    refine ⟨fun _ ⟨p, hp, _⟩ => ?_, fun _ => hle⟩
    rw [hs] at hp
    contradiction

/-- Every minute until the end of 2023, from any start. -/
def everyMinuteUntil2024 (start : Option Instant) : Timing :=
  ⟨.periodic ⟨⟨start, some ⟨1704067200, 0, by decide, by decide⟩⟩, 60000⟩, none⟩

/-- A grid from 2023-12-31T23:58:30 on has a last point half a minute before the end. -/
theorem everyMinuteUntil2024_last :
    (everyMinuteUntil2024 (some ⟨1704067110, 0, by decide, by decide⟩)).nextRunFrom
      ⟨1704067170, 0, by decide, by decide⟩ = .ok (some ⟨1704067170, 0, by decide, by decide⟩) ∧
    (⟨1704067170, 0, by decide, by decide⟩ : Instant) ≤ ⟨1704067200, 0, by decide, by decide⟩ := by
  have hrun : (everyMinuteUntil2024 (some ⟨1704067110, 0, by decide, by decide⟩)).nextRunFrom
      ⟨1704067170, 0, by decide, by decide⟩ =
        .ok (some ⟨1704067170, 0, by decide, by decide⟩) := by
    decide +kernel
  have hfinish (start : Option Instant) : (everyMinuteUntil2024 start).schedule.finish =
      some ⟨1704067200, 0, by decide, by decide⟩ := rfl
  have hanchored :
      ¬ (everyMinuteUntil2024 (some ⟨1704067110, 0, by decide, by decide⟩)).IsUnanchored := by
    rintro ⟨p, hp, hstart, -⟩
    cases hp
    cases hstart
  exact ⟨hrun, (nextRunFrom_le_finish_iff hrun (hfinish _)).2 fun hun => absurd hun hanchored⟩

/-- Without a start, June 2024 is offered as if the window were open. -/
theorem everyMinuteUntil2024_past_finish :
    (everyMinuteUntil2024 none).nextRunFrom ⟨1717200000, 0, by decide, by decide⟩ =
        .ok (some ⟨1717200000, 0, by decide, by decide⟩) ∧
      (everyMinuteUntil2024 none).schedule.finish = some ⟨1704067200, 0, by decide, by decide⟩ ∧
      ¬ (⟨1717200000, 0, by decide, by decide⟩ : Instant) ≤
        ⟨1704067200, 0, by decide, by decide⟩ := by
  refine ⟨?_, rfl, by decide⟩
  decide +kernel

end ProbeAgent.Timing
