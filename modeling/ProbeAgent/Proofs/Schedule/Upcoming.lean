import ProbeAgent.CommandLine.Display
import ProbeAgent.Proofs.Schedule.Occurrences

/-!
# Upcoming runs skip nothing

The list of upcoming runs is made one by one, each run taken as the last one before the next is
looked for.  `Schedule.Follows` is what these steps come to: each run is the first occurrence that is
more than a second after the one before it.  `preview_lists` reads off it what is listed, what may be
missing in between, and what may come after the list.
-/

namespace ProbeAgent

namespace Schedule

/-! ## One after the other -/

/-- So many runs after a given one, each the first that may follow; fewer if none may. -/
inductive Follows (s : Schedule) : Instant → Nat → List Instant → Prop where
  | stop {run} : Follows s run 0 []
  | ended {run count} (h : ∀ t, ¬ s.MayFollow run t) : Follows s run (count + 1) []
  | next {run count t rest} (h : IsLeast {t | s.MayFollow run t} t) (hrest : Follows s t count rest) :
      Follows s run (count + 1) (t :: rest)

variable {s : Schedule} {run t last : Instant} {runs : List Instant} {count : Nat}

namespace Follows

theorem length_le (h : s.Follows run count runs) : runs.length ≤ count := by
  induction h with
  | stop => exact Nat.le_refl 0
  | ended => exact Nat.zero_le _
  | next _ _ ih => exact Nat.succ_le_succ ih

theorem wants (h : s.Follows run count runs) : ∀ t ∈ runs, s.Wants t := by
  induction h with
  | stop => exact fun t ht => absurd ht List.not_mem_nil
  | ended => exact fun t ht => absurd ht List.not_mem_nil
  | next h _ ih =>
    intro t ht
    rcases List.mem_cons.1 ht with rfl | hmem
    · exact h.1.wants
    · exact ih t hmem

/-- All occurrences lie outside of leap seconds, so spans between them add up. -/
theorem pairwise (hstart : ∀ start, s.start = some start → start.isLeap = false)
    (hrun : run.isLeap = false) (h : s.Follows run count runs) :
    (run :: runs).Pairwise fun t u => t < u ∧ nanosPerSecond < u.since t := by
  induction h with
  | stop => exact List.pairwise_singleton _ _
  | ended => exact List.pairwise_singleton _ _
  | @next run count t rest h hrest ih =>
    have htleap := isLeap_of_occurs hstart h.1.wants.1
    have hpairs := ih htleap
    have happart := h.1.apart
    rw [Instant.since_eq_sub htleap hrun] at happart
    refine List.pairwise_cons.2 ⟨fun u hu => ?_, hpairs⟩
    have huleap : u.isLeap = false := by
      rcases List.mem_cons.1 hu with rfl | hmem
      · exact htleap
      · exact isLeap_of_occurs hstart (hrest.wants u hmem).1
    have hle : t.nanos ≤ u.nanos := by
      rcases List.mem_cons.1 hu with rfl | hmem
      · exact Int.le_refl _
      · have := (List.rel_of_pairwise_cons hpairs hmem).1
        rw [Instant.lt_iff_nanos_lt htleap huleap] at this
        omega
    rw [Instant.lt_iff_nanos_lt hrun huleap, Instant.since_eq_sub huleap hrun]
    simp only [nanosPerSecond] at happart ⊢
    omega

-- An occurrence between two runs could have followed the first one, unless it is too close to it.
theorem complete (hstart : ∀ start, s.start = some start → start.isLeap = false)
    (hrun : run.isLeap = false) (h : s.Follows run count runs)
    (hlast : (run :: runs).getLast? = some last) (ht : s.Occurs t) (hfrom : run ≤ t)
    (hto : t ≤ last) :
    t ∈ run :: runs ∨ ∃ u ∈ run :: runs, u < t ∧ t.since u ≤ nanosPerSecond := by
  induction h with
  | stop =>
    cases hlast
    exact .inl (List.mem_singleton.2 (Instant.le_antisymm hto hfrom))
  | ended =>
    cases hlast
    exact .inl (List.mem_singleton.2 (Instant.le_antisymm hto hfrom))
  | @next run count v rest h hrest ih =>
    rw [List.getLast?_cons_cons] at hlast
    have hvleap := isLeap_of_occurs hstart h.1.wants.1
    by_cases hv : v ≤ t
    · -- The occurrence comes after the next run as well.
      rcases ih hvleap hlast hv with hmem | ⟨u, hu, hlt⟩
      · exact .inl (List.mem_cons_of_mem _ hmem)
      · exact .inr ⟨u, List.mem_cons_of_mem _ hu, hlt⟩
    · by_cases heq : t ≤ run
      · exact .inl (List.mem_cons.2 (.inl (Instant.le_antisymm heq hfrom)))
      · refine .inr ⟨run, List.mem_cons_self, Instant.not_le.1 heq, ?_⟩
        by_contra hfar
        have htv := Instant.le_of_lt (Instant.not_le.1 hv)
        refine hv (h.2 ⟨⟨ht, fun finish hf => ?_⟩, fun c hc => ?_, by omega⟩)
        · exact Instant.le_trans htv (h.1.wants.2 finish hf)
        · have := Instant.year_mono htv
          have := h.1.reach c hc
          omega

theorem none_left (h : s.Follows run count runs) (hfew : runs.length < count)
    (hlast : (run :: runs).getLast? = some last) : ¬ s.MayFollow last t := by
  induction h with
  | stop => exact absurd hfew (Nat.lt_irrefl 0)
  | ended h =>
    cases hlast
    exact h t
  | next h hrest ih =>
    rw [List.getLast?_cons_cons] at hlast
    exact ih (Nat.lt_of_succ_lt_succ hfew) hlast

end Follows

end Schedule

namespace Timing

variable {t : Timing} {run reference : Instant}

/-! ## All steps -/

/-- There is a run to list in the last two seconds that have a date. -/
def RunsIntoEnd (t : Timing) : Prop :=
  (∃ c, t.schedule = .calendar c) ∧ ∃ run, t.schedule.Wants run ∧ maxSecond < run.second + 2

/-- So many runs after a given one are listed, unless the dates run out. -/
def GoesOn (t : Timing) (run : Instant) (count : Nat) : Prop :=
  (∃ runs after, (t.ranAt run).upcoming run count = .ok (runs, after) ∧
    t.schedule.Follows run count runs) ∨
  ((t.ranAt run).upcoming run count = .error .yearOutOfRange ∧ t.RunsIntoEnd)

theorem upcoming_of_none {count : Nat} (h : t.nextRunFrom reference = .ok none) :
    t.upcoming reference (count + 1) = .ok ([], t) := by
  rw [upcoming, h]
  rfl

theorem upcoming_of_error {count : Nat} {e : DateOverflow} (h : t.nextRunFrom reference = .error e) :
    t.upcoming reference (count + 1) = .error e := by
  rw [upcoming, h]
  rfl

theorem upcoming_of_some {count : Nat} (h : t.nextRunFrom reference = .ok (some run)) :
    t.upcoming reference (count + 1) = do
      let _ ← (t.ranAt run).nextRunFrom run
      let (runs, after) ← (t.ranAt run).upcoming run count
      return (run :: runs, after) := by
  rw [upcoming, h]
  show (do let _ ← (t.ranAt run).hasNextRun run; _) = _
  rw [hasNextRun]
  cases (t.ranAt run).nextRunFrom run with
  | error e => rfl
  | ok next => rfl

theorem upcoming_found {count : Nat} (htab : t.schedule.IsTabular)
    (hstart : ∀ start, t.schedule.start = some start → start.isLeap = false)
    (hrun : t.schedule.Wants run) (hfound : t.nextRunFrom reference = .ok (some run))
    (hgoes : t.GoesOn run count) :
    (∃ runs after, t.upcoming reference (count + 1) = .ok (run :: runs, after) ∧
      t.schedule.Follows run count runs) ∨
    (t.upcoming reference (count + 1) = .error .yearOutOfRange ∧ t.RunsIntoEnd) := by
  rw [upcoming_of_some hfound]
  -- That the run has a successor is asked before the list goes on.
  rcases nextRunFrom_ranAt htab hstart hrun.1 with ⟨next, hnext, -⟩ | ⟨herror, hc, hroom⟩
  · rw [hnext]
    rcases hgoes with ⟨runs, after, hok, hfollows⟩ | ⟨herror, hend⟩
    · refine .inl ⟨runs, after, ?_, hfollows⟩
      rw [hok]
      rfl
    · refine .inr ⟨?_, hend⟩
      rw [herror]
      rfl
  · refine .inr ⟨?_, hc, run, hrun, hroom⟩
    rw [herror]
    rfl

-- The induction is on the number of runs, for any last run that was wanted.
theorem goesOn (htab : t.schedule.IsTabular)
    (hstart : ∀ start, t.schedule.start = some start → start.isLeap = false)
    (hrun : t.schedule.Wants run) (count : Nat) : t.GoesOn run count := by
  induction count generalizing run with
  | zero => exact .inl ⟨[], _, rfl, .stop⟩
  | succ count ih =>
    rcases nextRunFrom_ranAt htab hstart hrun.1 with ⟨next, hnext, hfirst⟩ | ⟨herror, hc, hroom⟩
    · cases next with
      | none => exact .inl ⟨[], _, upcoming_of_none hnext, .ended hfirst⟩
      | some u =>
        have hwants : t.schedule.Wants u := hfirst.1.wants
        have hfound := upcoming_found (t := t.ranAt run) htab hstart hwants hnext (ih hwants)
        rcases hfound with ⟨runs, after, hok, hfollows⟩ | herror
        · exact .inl ⟨u :: runs, after, hok, .next hfirst hfollows⟩
        · exact .inr herror
    · exact .inr ⟨upcoming_of_error herror, hc, run, hrun, hroom⟩

/-- A run is wanted in the last two seconds that have a date, or the reference and the start cannot
be rounded up to a second that has one. -/
def DatesRunOut (t : Timing) (reference : Instant) : Prop :=
  t.RunsIntoEnd ∨ ∃ c, t.schedule = .calendar c ∧ ∀ first, ¬ c.IsFirstSecond reference first

end Timing

/-! ## The list -/

/-- What a list of at most `count` runs from the reference on says about the occurrences of a
schedule. -/
structure Schedule.Lists (s : Schedule) (reference : Instant) (count : Nat)
    (runs : List Instant) : Prop where
  length_le : runs.length ≤ count
  wants : ∀ t ∈ runs, s.Wants t
  pairwise : runs.Pairwise fun t u => t < u ∧ nanosPerSecond < u.since t
  -- What is not listed between the first and the last run is too close after a run that is.
  complete : ∀ first last t, runs.head? = some first → runs.getLast? = some last → s.Occurs t →
    first ≤ t → t ≤ last → t ∈ runs ∨ ∃ u ∈ runs, u < t ∧ t.since u ≤ nanosPerSecond
  -- A list that is too short ends because no run is left, as far as a search reaches.
  no_more : runs.length < count → ∀ last t, runs.getLast? = some last → ¬ s.MayFollow last t
  none_at_all : runs = [] → 0 < count → ∀ t, s.Wants t → reference ≤ t →
    ¬ ∀ c first, s = calendar c → c.IsFirstSecond reference first → t.year ≤ first.year + 2

theorem Schedule.Follows.lists {s : Schedule} {run reference : Instant} {count : Nat}
    {runs : List Instant} (hstart : ∀ start, s.start = some start → start.isLeap = false)
    (hrun : s.Wants run) (h : s.Follows run count runs) :
    s.Lists reference (count + 1) (run :: runs) where
  length_le := Nat.succ_le_succ h.length_le
  wants t ht := by
    rcases List.mem_cons.1 ht with rfl | hmem
    · exact hrun
    · exact h.wants t hmem
  pairwise := h.pairwise hstart (isLeap_of_occurs hstart hrun.1)
  complete first last t hfirst hlast ht hfrom hto := by
    cases hfirst
    exact h.complete hstart (isLeap_of_occurs hstart hrun.1) hlast ht hfrom hto
  no_more hfew last t hlast := h.none_left (Nat.lt_of_succ_lt_succ hfew) hlast
  none_at_all hnil := by contradiction

theorem Timing.upcoming_lists {t : Timing} {reference : Instant} (htab : t.schedule.IsTabular)
    (hfresh : t.lastRun = none)
    (hstart : ∀ start, t.schedule.start = some start → start.isLeap = false)
    (href : reference.isLeap = false) (count : Nat) :
    (∃ runs after, t.upcoming reference count = .ok (runs, after) ∧
      t.schedule.Lists reference count runs) ∨
    (t.upcoming reference count = .error .yearOutOfRange ∧ t.DatesRunOut reference) := by
  cases count with
  | zero =>
    refine .inl ⟨[], _, rfl, Nat.le_refl 0, ?_, .nil, ?_, ?_, ?_⟩
    · exact fun t ht => absurd ht List.not_mem_nil
    · intro first last t hfirst
      contradiction
    · exact fun hfew => absurd hfew (Nat.lt_irrefl 0)
    · exact fun _ hpos => absurd hpos (Nat.lt_irrefl 0)
  | succ count =>
    rcases nextRunFrom_fresh htab hfresh hstart href with ⟨next, hnext, hwants, hnone⟩ |
      ⟨herror, hround⟩
    · cases next with
      | none =>
        refine .inl ⟨[], t, upcoming_of_none hnext, Nat.zero_le _, ?_, .nil, ?_, ?_, ?_⟩
        · exact fun t ht => absurd ht List.not_mem_nil
        · intro first last t hfirst
          contradiction
        · intro _ last t hlast
          contradiction
        · exact fun _ _ => hnone rfl
      | some run =>
        have hrun := hwants run rfl
        rcases upcoming_found htab hstart hrun hnext (goesOn htab hstart hrun count) with
          ⟨runs, after, hok, hfollows⟩ | ⟨herror, hend⟩
        · exact .inl ⟨run :: runs, after, hok, hfollows.lists hstart hrun⟩
        · exact .inr ⟨herror, .inl hend⟩
    · exact .inr ⟨upcoming_of_error herror, .inr hround⟩

/-- The preview of a task that has not run shows upcoming runs under a headline, and says so if there
are fewer than asked for.  No occurrence is missing between the runs but those within a second after
one, and none is left after a list that is too short.  The only other end is that the dates run out. -/
theorem TaskSpec.preview_lists (spec : TaskSpec) {reference : Instant}
    (htab : spec.timing.schedule.IsTabular) (hfresh : spec.timing.lastRun = none)
    (hstart : ∀ start, spec.timing.schedule.start = some start → start.isLeap = false)
    (href : reference.isLeap = false) (count : Nat) :
    (∃ runs after, spec.timing.upcoming reference count = .ok (runs, after) ∧
      spec.preview reference count = .ok
        (("task " ++ spec.id.render ++ " (" ++ spec.method ++ ", "
            ++ spec.timing.schedule.typeName ++ "):") ::
          runs.map (fun t => "  " ++ t.renderWithWeekday)
            ++ if runs.length < count then ["  (no further runs)"] else []) ∧
      spec.timing.schedule.Lists reference count runs) ∨
    (spec.preview reference count = .error .yearOutOfRange ∧ spec.timing.DatesRunOut reference) := by
  rcases Timing.upcoming_lists htab hfresh hstart href count with ⟨runs, after, hok, hlists⟩ |
    ⟨herror, hout⟩
  · refine .inl ⟨runs, after, hok, ?_, hlists⟩
    rw [preview, hok]
    rfl
  · refine .inr ⟨?_, hout⟩
    rw [preview, herror]
    rfl

/-- Every 400 milliseconds in the first two seconds of 2026. -/
def everyFourTenths : TaskSpec where
  id := ⟨5⟩
  method := "udpping"
  options := .obj []
  timing := Schedule.fresh (.periodic ⟨⟨some ⟨1767225600, 0, by decide, by decide⟩,
    some ⟨1767225602, 0, by decide, by decide⟩⟩, 400⟩)

/-- Of the six points of the grid, the first and the fourth are listed. -/
theorem everyFourTenths_listed :
    everyFourTenths.preview ⟨1767225600, 0, by decide, by decide⟩ 3 = .ok
      ["task 5 (udpping, periodic):", "  2026-01-01 00:00:00 Thu", "  2026-01-01 00:00:01 Thu",
        "  (no further runs)"] ∧
    everyFourTenths.timing.schedule.Lists ⟨1767225600, 0, by decide, by decide⟩ 3
      [⟨1767225600, 0, by decide, by decide⟩, ⟨1767225601, 200000000, by decide, by decide⟩] := by
  have htab : everyFourTenths.timing.schedule.IsTabular :=
    .inr ⟨_, rfl, rfl, by decide, by decide⟩
  have hstart : ∀ start, everyFourTenths.timing.schedule.start = some start →
      start.isLeap = false := by
    intro start hs
    cases hs
    rfl
  have hupcoming : ((everyFourTenths.timing.upcoming ⟨1767225600, 0, by decide, by decide⟩ 3).map
      Prod.fst) = .ok
        [⟨1767225600, 0, by decide, by decide⟩, ⟨1767225601, 200000000, by decide, by decide⟩] := by
    decide +kernel
  have hpreview : everyFourTenths.preview ⟨1767225600, 0, by decide, by decide⟩ 3 = .ok
      ["task 5 (udpping, periodic):", "  2026-01-01 00:00:00 Thu", "  2026-01-01 00:00:01 Thu",
        "  (no further runs)"] := by
    decide +kernel
  have href : (⟨1767225600, 0, by decide, by decide⟩ : Instant).isLeap = false := rfl
  refine ⟨hpreview, ?_⟩
  rcases TaskSpec.preview_lists everyFourTenths htab rfl hstart href 3 with
    ⟨runs, after, hok, -, hlists⟩ | ⟨herror, -⟩
  · rw [hok] at hupcoming
    cases hupcoming
    exact hlists
  · rw [hpreview] at herror
    contradiction

end ProbeAgent
