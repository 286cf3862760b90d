import ProbeAgent.Proofs.Schedule.Exhaustion

/-!
# Later references

A later reference does not bring a run forward (`Timing.nextRunFrom_mono`).  Immediate and periodic
timings lose runs as the reference moves on, so one that has none left stays that way.  A calendar
may find a run again, as it looks only two years ahead; what it finds from two references is in order
all the same.
-/

namespace ProbeAgent

variable {reference later : Instant}

/-- What comes first is not later, if everything else has something before it. -/
theorem IsFirst.exists_le {P Q : Instant → Prop} {found : Option Instant} {u : Instant}
    (h : IsFirst P found) (hu : Q u) (hbefore : ∀ t, Q t → ∃ v, P v ∧ v ≤ t) :
    ∃ run, found = some run ∧ run ≤ u := by
  obtain ⟨v, hv, hle⟩ := hbefore u hu
  cases found with
  | none => exact absurd hv (h v)
  | some run => exact ⟨run, rfl, Instant.le_trans (h.2 hv) hle⟩

/-! ## Grids -/

namespace Periodic

variable {p : Periodic} {anchor run : Instant} {last : Option Instant} {millis k : Int}

theorem Counts.of_le (hle : reference ≤ later) (hanchor : anchor.isLeap = false)
    (href : reference.isLeap = false) (hlater : later.isLeap = false) (hpos : 0 < millis)
    (h : Counts anchor later millis k) : Counts anchor reference millis k := by
  rw [counts_iff_nanos hanchor hlater hpos rfl] at h
  rw [counts_iff_nanos hanchor href hpos rfl]
  rw [Instant.le_iff_nanos_le href hlater] at hle
  omega

/-- A point of the grid that may be offered could be offered before.  Without a grid, the earlier
reference could. -/
theorem MayRun.exists_le (hle : reference ≤ later)
    (hanchor : ∀ anchor, p.anchor? last = some anchor → anchor.isLeap = false)
    (href : reference.isLeap = false) (hlater : later.isLeap = false)
    (h : p.MayRun last later run) : ∃ u, p.MayRun last reference u ∧ u ≤ run := by
  cases h with
  | reference hstep hnone => exact ⟨reference, .reference hstep hnone, hle⟩
  | point hstep hsome hcounts hpoint hfar hfinish =>
    have hpos := (step?_eq_millis hstep).1
    have hcounts' := hcounts.of_le hle (hanchor _ hsome) href hlater hpos
    exact ⟨run, .point hstep hsome hcounts' hpoint hfar hfinish, Instant.le_refl run⟩

end Periodic

/-! ## Calendars -/

namespace Calendar

variable {c : Calendar} {last : Option Instant} {run run' first first' : Instant}

theorem IsFirstSecond.mono (hle : reference ≤ later) (h : c.IsFirstSecond reference first)
    (h' : c.IsFirstSecond later first') : first ≤ first' := by
  obtain ⟨hwhole, href, hstart⟩ := h'.1
  exact h.2 ⟨hwhole, Instant.le_trans hle href, hstart⟩

/-- Either the later search ends where the earlier one looked too, or in a later year. -/
theorem le_of_mayRun (hle : reference ≤ later) (h : IsLeast {t | c.MayRun last reference t} run)
    (h' : c.MayRun last later run') : run ≤ run' := by
  obtain ⟨⟨first, hfirst, hoffers⟩, hleast⟩ := h
  obtain ⟨first', hfirst', hoffers'⟩ := h'
  have hfirsts := hfirst.mono hle hfirst'
  by_cases hyear : run'.year ≤ first.year + 2
  · have hmay : c.MayRun last reference run' :=
      ⟨first, hfirst, hoffers'.isMatch, Instant.le_trans hfirsts hoffers'.from_first, hyear,
        hoffers'.after_last, hoffers'.before_finish⟩
    exact hleast hmay
  · have hearlier := hoffers.year_le
    by_contra hless
    have := Instant.year_mono (Instant.le_of_lt (Instant.not_le.1 hless))
    omega

end Calendar

/-! ## Timings -/

namespace Timing

variable {t : Timing}

theorem MayRun.exists_le {run : Instant} (hle : reference ≤ later)
    (hleap : ∀ p, t.schedule = .periodic p →
      t.NoLeap ∧ reference.isLeap = false ∧ later.isLeap = false)
    (hgrid : ∀ c, t.schedule ≠ .calendar c) (h : t.MayRun later run) :
    ∃ u, t.MayRun reference u ∧ u ≤ run := by
  cases h with
  | immediate hs hlast => exact ⟨reference, .immediate hs hlast, hle⟩
  | periodic hs hrun =>
    obtain ⟨hcalm, href, hlater⟩ := hleap _ hs
    obtain ⟨u, hu, hule⟩ := hrun.exists_le hle (fun anchor => hcalm.anchor hs) href hlater
    exact ⟨u, .periodic hs hu, hule⟩
  | calendar hs => exact absurd hs (hgrid _)

theorem exists_earlier_run {found : Option Instant} {run' : Instant} (hle : reference ≤ later)
    (hleap : ∀ p, t.schedule = .periodic p →
      t.NoLeap ∧ reference.isLeap = false ∧ later.isLeap = false)
    (hgrid : ∀ c, t.schedule ≠ .calendar c) (h : t.nextRunFrom reference = .ok found)
    (h' : t.nextRunFrom later = .ok (some run')) : ∃ run, found = some run ∧ run ≤ run' := by
  obtain ⟨-, hfirst⟩ := (nextRunFrom_eq_ok_iff found).1 h
  obtain ⟨-, hfirst'⟩ := (nextRunFrom_eq_ok_iff (some run')).1 h'
  exact hfirst.exists_le hfirst'.1 fun u hu => hu.exists_le hle hleap hgrid

/-- From a later reference on, the next run is not earlier.  If an immediate or periodic timing has
none from some reference on, it has none from a later one.  Leap seconds matter to periodic timings
only. -/
theorem nextRunFrom_mono (hle : reference ≤ later)
    (hleap : ∀ p, t.schedule = .periodic p →
      t.NoLeap ∧ reference.isLeap = false ∧ later.isLeap = false) :
    (∀ run run', t.nextRunFrom reference = .ok (some run) →
      t.nextRunFrom later = .ok (some run') → run ≤ run') ∧
    ((∀ c, t.schedule ≠ .calendar c) →
      t.nextRunFrom reference = .ok none → t.nextRunFrom later = .ok none) := by
  constructor
  · intro run run' hrun hrun'
    by_cases hgrid : ∀ c, t.schedule ≠ .calendar c
    · obtain ⟨_, heq, hrunle⟩ := exists_earlier_run hle hleap hgrid hrun hrun'
      cases heq
      exact hrunle
    · obtain ⟨c, hs⟩ : ∃ c, t.schedule = .calendar c := by simpa using hgrid
      obtain ⟨-, hfirst⟩ := (nextRunFrom_eq_ok_iff (some run)).1 hrun
      obtain ⟨-, hfirst'⟩ := (nextRunFrom_eq_ok_iff (some run')).1 hrun'
      simp only [IsFirst, mayRun_iff_of_calendar hs] at hfirst hfirst'
      exact Calendar.le_of_mayRun hle hfirst hfirst'.1
  · intro hgrid hnone
    rcases t.nextRunFrom_answers later with ⟨⟨c, hs, -⟩, -⟩ | ⟨-, next, hnext, -⟩
    · exact absurd hs (hgrid c)
    · cases next with
      | none => exact hnext
      | some run' =>
        obtain ⟨run, hrun, -⟩ := exists_earlier_run hle hleap hgrid hnone hnext
        contradiction

-- On February 29 only: none is found from 2097 on, as 2100 has none either, but from 2102 on one is.
example :
    let leapDays := Schedule.fresh (.calendar { Calendar.everySecond with
      months := .ofList [2], daysOfMonth := .ofList [29] })
    leapDays.nextRunFrom ⟨4012934400, 0, by decide, by decide⟩ = .ok none ∧
      leapDays.nextRunFrom ⟨4165516800, 0, by decide, by decide⟩ =
        .ok (some ⟨4233686400, 0, by decide, by decide⟩) := by
  decide +kernel

/-- Every minute from 2023-12-31T23:58:30 to the end of the year. -/
def lastMinutesOf2023 : Timing :=
  everyMinuteUntil2024 (some ⟨1704067110, 0, by decide, by decide⟩)

/-- Half a minute before the first of the two runs it is next, and a second after it the other one is.
A second after that nothing is left, and so nothing is left half a year later. -/
theorem lastMinutesOf2023_exhausted :
    (∃ run run',
      lastMinutesOf2023.nextRunFrom ⟨1704067080, 0, by decide, by decide⟩ = .ok (some run) ∧
      lastMinutesOf2023.nextRunFrom ⟨1704067111, 0, by decide, by decide⟩ = .ok (some run') ∧
      run ≤ run') ∧
    lastMinutesOf2023.nextRunFrom ⟨1704067171, 0, by decide, by decide⟩ = .ok none ∧
    lastMinutesOf2023.nextRunFrom ⟨1717200000, 0, by decide, by decide⟩ = .ok none := by
  have hcalm : lastMinutesOf2023.NoLeap :=
    ⟨fun s hs => by cases hs; rfl, fun w hw => by cases hw⟩
  have hgrid : ∀ c, lastMinutesOf2023.schedule ≠ .calendar c := fun c hc => by cases hc
  have hfirst : lastMinutesOf2023.nextRunFrom ⟨1704067080, 0, by decide, by decide⟩ =
      .ok (some ⟨1704067110, 0, by decide, by decide⟩) := by
    decide +kernel
  have hsecond : lastMinutesOf2023.nextRunFrom ⟨1704067111, 0, by decide, by decide⟩ =
      .ok (some ⟨1704067170, 0, by decide, by decide⟩) := by
    decide +kernel
  have hnone : lastMinutesOf2023.nextRunFrom ⟨1704067171, 0, by decide, by decide⟩ =
      .ok none := by
    decide +kernel
  have hearlier : (⟨1704067080, 0, by decide, by decide⟩ : Instant) ≤
      ⟨1704067111, 0, by decide, by decide⟩ := by
    decide
  have hlater : (⟨1704067171, 0, by decide, by decide⟩ : Instant) ≤
      ⟨1717200000, 0, by decide, by decide⟩ := by
    decide
  have hruns := nextRunFrom_mono (t := lastMinutesOf2023) hearlier fun _ _ => ⟨hcalm, rfl, rfl⟩
  have hend := nextRunFrom_mono (t := lastMinutesOf2023) hlater fun _ _ => ⟨hcalm, rfl, rfl⟩
  exact ⟨⟨_, _, hfirst, hsecond, hruns.1 _ _ hfirst hsecond⟩, hnone, hend.2 hgrid hnone⟩

end Timing

end ProbeAgent
