import ProbeAgent.Proofs.Scheduler.Course

/-!
# The stages of runs

`Agent.Advance` lists the ways from one stage of a run to the next, where `Agent.Effect` only says
that a run moves on, and `Agent.Turn` says that a step advances at most one run.  Permits are
counted from this list: a run takes one only while one is free, and keeps it until it is gone.
-/

namespace ProbeAgent.Agent

/-- How a step takes a run from one stage to the next, or out of its flight. -/
inductive Advance (a : Agent) (job : Job) : Step → Stage → Option Stage → Prop where
  | announced : Advance a job (.announce job) .announcing (some .queued)
  | admitted (hfree : a.permitsTaken < a.permits) :
      Advance a job (.grantPermit job) .queued (some .admitted)
  -- The run does not count any more.
  | dropped (hstale : a.scheduler.intact = true → a.scheduler.current? job = none) :
      Advance a job (.begin job) .admitted none
  -- There is nothing to measure.
  | skipped {plan outcome} (hplan : a.scheduler.plan? job = .ok (some plan))
      (hsession : plan.session (a.scheduler.isCancelled job.run) = .error outcome) :
      Advance a job (.begin job) .admitted (some (.measured outcome))
  | begun {plan session} (hplan : a.scheduler.plan? job = .ok (some plan))
      (hsession : plan.session (a.scheduler.isCancelled job.run) = .ok session) :
      Advance a job (.begin job) .admitted (some .measuring)
  | finished {outcome} : Advance a job (.finish job outcome) .measuring (some (.measured outcome))
  | completed {now outcome} :
      Advance a job (.complete job now) (.measured outcome)
        (some (.reporting (a.scheduler.complete job outcome now).events))
  | told {event rest} :
      Advance a job (.report job) (.reporting (event :: rest)) (some (.reporting rest))
  | gone : Advance a job (.report job) (.reporting []) none
  | abandoned {stage} : Advance a job (.abandon job) stage none

/-- What a step can make of the runs in flight. -/
inductive Turn (a : Agent) : Step → List Flight → Prop where
  | same {step} : Turn a step a.flights
  | dispatched {now} {jobs : List Job}
      (hnew : ∀ job ∈ jobs, a.scheduler.nextRunId ≤ job.run.value) :
      Turn a (.dispatch now) (a.flights ++ jobs.map (Flight.mk · .announcing))
  | moved {step job old new} (hstage : a.stage? job = some old)
      (h : Advance a job step old (some new)) : Turn a step (a.setStage job new).flights
  | landed {step job old} (hstage : a.stage? job = some old) (h : Advance a job step old none) :
      Turn a step (a.land job).flights

variable {a b : Agent} {step : Step} {job : Job}

theorem current?_eq_none_of_plan? {s : Scheduler} (hplan : ∀ plan, s.plan? job ≠ .ok (some plan))
    (hintact : s.intact = true) : s.current? job = none := by
  cases hcurrent : s.current? job with
  | none => rfl
  | some task =>
    refine absurd ?_ (hplan ⟨s.registry.measurement task.spec.method, task.definition⟩)
    rw [Scheduler.plan?, Scheduler.checkIntact_of_intact hintact, hcurrent]
    rfl

theorem turn_dispatch (a : Agent) (now : Instant) :
    Turn a (.dispatch now) (a.after (.dispatch now)).flights := by
  rw [after, tryDispatch, dispatch]
  cases hdispatch : a.scheduler.dispatch now with
  | error e => exact .same
  | ok result =>
    obtain ⟨jobs, s⟩ := result
    obtain ⟨-, tasks, next, hdue, -⟩ := Scheduler.dispatch_eq_ok hdispatch
    exact .dispatched fun job hjob => (hdue.mem_jobs hjob).2.1

theorem turn_begin (a : Agent) (job : Job) : Turn a (.begin job) (a.after (.begin job)).flights := by
  rw [after, begin]
  split
  · rename_i hstage
    cases hplan : a.scheduler.plan? job with
    | error e =>
      refine .landed hstage (.dropped (current?_eq_none_of_plan? fun plan hsome => ?_))
      rw [hplan] at hsome
      cases hsome
    | ok found =>
      cases found with
      | none =>
        refine .landed hstage (.dropped (current?_eq_none_of_plan? fun plan hsome => ?_))
        rw [hplan] at hsome
        cases hsome
      | some plan =>
        cases hsession : plan.session (a.scheduler.isCancelled job.run) with
        | error outcome =>
          simp only [hsession]
          exact .moved hstage (.skipped hplan hsession)
        | ok session =>
          simp only [hsession]
          exact .moved hstage (.begun hplan hsession)
  · exact .same

theorem land_of_stage?_eq_none (h : a.stage? job = none) : a.land job = a := by
  rw [stage?, Option.map_eq_none_iff, List.find?_eq_none] at h
  have hflights : a.flights.filter (·.job ≠ job) = a.flights :=
    List.filter_eq_self.2 fun f hf => by simpa using h f hf
  rw [land, hflights]

theorem turn_after (a : Agent) (step : Step) : Turn a step (a.after step).flights := by
  cases step with
  | enqueue spec now | remove id | stop id =>
    rw [after]
    split <;> exact .same
  | shutDown =>
    rw [after, shutDown]
    split <;> exact .same
  | cancel run | forget id => exact .same
  | dispatch now => exact turn_dispatch a now
  | announce job =>
    rw [after, announce]
    split
    · rename_i hstage
      exact .moved hstage .announced
    · exact .same
  | grantPermit job =>
    rw [after, grantPermit]
    split
    · rename_i hstage
      split
      · rename_i hfree
        exact .moved hstage (.admitted hfree)
      · exact .same
    · exact .same
  | begin job => exact turn_begin a job
  | finish job outcome =>
    rw [after, finish]
    split
    · rename_i hstage
      exact .moved hstage .finished
    · exact .same
  | complete job now =>
    rw [after, complete]
    split
    · rename_i outcome hstage
      exact .moved hstage .completed
    · exact .same
  | report job =>
    rw [after, report]
    split
    · rename_i hstage
      exact .landed hstage .gone
    · rename_i hstage
      exact .moved hstage .told
    · exact .same
  | abandon job =>
    rw [after]
    cases hstage : a.stage? job with
    | none =>
      rw [land_of_stage?_eq_none hstage]
      exact .same
    | some stage => exact .landed hstage .abandoned

/-! ## The stage of one run -/

theorem stage?_setStage (a : Agent) (other : Job) (stage : Stage) (job : Job) :
    (a.setStage other stage).stage? job =
      if other = job then (a.stage? job).map fun _ => stage else a.stage? job := by
  have hjob (f : Flight) : (if f.job = other then { f with stage := stage } else f).job = f.job := by
    split <;> rfl
  unfold stage? setStage
  rw [List.find?_map]
  simp only [Function.comp_def, hjob]
  cases hfind : a.flights.find? (·.job = job) with
  | none => simp
  | some f =>
    have hf : f.job = job := by simpa using List.find?_some hfind
    by_cases hother : other = job
    · simp [hf, hother]
    · simp [hf, hother, Ne.symm hother]

theorem stage?_land (a : Agent) (other job : Job) :
    (a.land other).stage? job = if other = job then none else a.stage? job := by
  unfold stage? land
  rw [List.find?_filter]
  by_cases hother : other = job
  · subst hother
    simp
  · rw [if_neg hother]
    congr 2
    funext f
    by_cases hf : f.job = job
    · simp [hf, Ne.symm hother]
    · simp [hf]

theorem stage?_dispatched (hrun : job.run.value < a.scheduler.nextRunId) {jobs : List Job}
    (hnew : ∀ job ∈ jobs, a.scheduler.nextRunId ≤ job.run.value) :
    ({ a with flights := a.flights ++ jobs.map (Flight.mk · .announcing) } : Agent).stage? job =
      a.stage? job := by
  have hnone : (jobs.map (Flight.mk · .announcing)).find? (·.job = job) = none := by
    rw [List.find?_eq_none]
    intro f hf hjob
    obtain ⟨new, hmem, rfl⟩ := List.mem_map.1 hf
    obtain rfl : new = job := by simpa using hjob
    exact absurd hrun (Nat.not_lt.2 (hnew new hmem))
  unfold stage?
  rw [List.find?_append, hnone, Option.or_none]

/-- A step leaves the stage of a run that was dispatched before, or advances it. -/
theorem stage?_after (hrun : job.run.value < a.scheduler.nextRunId) (step : Step) :
    (a.after step).stage? job = a.stage? job ∨
      ∃ old, a.stage? job = some old ∧ Advance a job step old ((a.after step).stage? job) := by
  have hstage {c : Agent} (hflights : (a.after step).flights = c.flights) :
      (a.after step).stage? job = c.stage? job := by rw [stage?, hflights, stage?]
  have hturn := turn_after a step
  generalize (a.after step).flights = flights at hturn hstage
  cases hturn with
  | same => exact .inl (hstage rfl)
  | dispatched hnew =>
    left
    rw [← stage?_dispatched hrun hnew]
    exact hstage rfl
  | @moved _ other old new hold hadvance =>
    rw [hstage (c := a.setStage other new) rfl, stage?_setStage]
    by_cases hother : other = job
    · subst hother
      rw [if_pos rfl, hold]
      exact .inr ⟨old, rfl, hadvance⟩
    · exact .inl (if_neg hother)
  | @landed _ other old hold hadvance =>
    rw [hstage (c := a.land other) rfl, stage?_land]
    by_cases hother : other = job
    · subst hother
      rw [if_pos rfl]
      exact .inr ⟨old, hold, hadvance⟩
    · exact .inl (if_neg hother)

/-! ## Permits -/

theorem permits_after (a : Agent) (step : Step) : (a.after step).permits = a.permits := by
  cases step with
  | enqueue spec now | remove id | stop id =>
    rw [after]
    split <;> rfl
  | shutDown =>
    rw [after, shutDown]
    split <;> rfl
  | dispatch now =>
    rw [after, tryDispatch, dispatch]
    cases a.scheduler.dispatch now <;> rfl
  | announce job =>
    rw [after, announce]
    split <;> rfl
  | grantPermit job =>
    rw [after, grantPermit]
    split
    · split <;> rfl
    · rfl
  | begin job =>
    rw [after, begin]
    split
    · split
      · rfl
      · rfl
      · split <;> rfl
    · rfl
  | finish job outcome =>
    rw [after, finish]
    split <;> rfl
  | complete job now =>
    rw [after, complete]
    split <;> rfl
  | report job =>
    rw [after, report]
    split <;> rfl
  | cancel run | forget id | abandon job => rfl

theorem countP_le_add {α : Type} {p q r : α → Bool} (h : ∀ x, p x = true → q x = true ∨ r x = true)
    (l : List α) : l.countP p ≤ l.countP q + l.countP r := by
  induction l with
  | nil => exact Nat.le_refl _
  | cons x rest ih =>
    rw [List.countP_cons, List.countP_cons, List.countP_cons]
    by_cases hp : p x = true
    · rcases h x hp with hq | hr
      · rw [if_pos hp, if_pos hq]
        omega
      · rw [if_pos hp, if_pos hr]
        omega
    · rw [if_neg hp]
      omega

/-- A run is in flight at most once. -/
theorem InOrder.countP_job_le_one (h : a.InOrder) (job : Job) :
    a.flights.countP (·.job = job) ≤ 1 := by
  rw [List.countP_eq_length_filter]
  have hfilter := List.Pairwise.filter (·.job = job) h
  cases hsame : a.flights.filter (·.job = job) with
  | nil => exact Nat.zero_le 1
  | cons first rest =>
    have hjob : ∀ f ∈ first :: rest, f.job = job := by
      intro f hf
      rw [← hsame] at hf
      simpa using (List.mem_filter.1 hf).2
    rw [hsame] at hfilter
    cases rest with
    | nil => exact Nat.le_refl 1
    | cons second rest =>
      have hlt := (List.pairwise_cons.1 hfilter).1 second List.mem_cons_self
      rw [hjob first List.mem_cons_self, hjob second (.tail _ List.mem_cons_self)] at hlt
      exact absurd hlt (Nat.lt_irrefl _)

theorem permitsTaken_setStage_le (h : a.InOrder) {old new : Stage}
    (hstage : a.stage? job = some old)
    (hold : new.holdsPermit = true → old.holdsPermit = true) :
    (a.setStage job new).permitsTaken ≤ a.permitsTaken := by
  unfold permitsTaken setStage
  rw [List.countP_map]
  apply List.countP_mono_left
  intro f hf hholds
  by_cases hjob : f.job = job
  · have hmem := (stage?_eq_some_iff h).1 hstage
    rw [h.eq_of_run_eq hf hmem (congrArg Job.run hjob)]
    exact hold (by simpa [hjob] using hholds)
  · simpa [hjob] using hholds

theorem permitsTaken_setStage_le_succ (h : a.InOrder) (stage : Stage) :
    (a.setStage job stage).permitsTaken ≤ a.permitsTaken + 1 := by
  have hadd : (a.setStage job stage).permitsTaken ≤
      a.permitsTaken + a.flights.countP (·.job = job) := by
    unfold permitsTaken setStage
    rw [List.countP_map]
    apply countP_le_add
    intro f hholds
    by_cases hjob : f.job = job
    · exact .inr (decide_eq_true hjob)
    · left
      simpa [hjob] using hholds
  have hone := h.countP_job_le_one job
  omega

/-- No more runs hold a permit than there are permits. -/
theorem permitsTaken_after_le (hin : a.InOrder) (h : a.permitsTaken ≤ a.permits) (step : Step) :
    (a.after step).permitsTaken ≤ (a.after step).permits := by
  rw [permits_after, permitsTaken]
  have hturn := turn_after a step
  generalize (a.after step).flights = flights at hturn
  cases hturn with
  | same => exact h
  | @dispatched now jobs hnew =>
    have hnone : (jobs.map (Flight.mk · .announcing)).countP (·.stage.holdsPermit) = 0 := by
      rw [List.countP_map]
      exact List.countP_eq_zero.2 fun job _ => Bool.false_ne_true
    rw [List.countP_append, hnone]
    exact h
  | landed hstage hadvance => exact Nat.le_trans List.filter_sublist.countP_le h
  | @moved step job old new hstage hadvance =>
    have hkeep (hold : new.holdsPermit = true → old.holdsPermit = true) :
        (a.setStage job new).permitsTaken ≤ a.permits :=
      Nat.le_trans (permitsTaken_setStage_le hin hstage hold) h
    cases hadvance with
    | announced => exact hkeep fun h => by cases h
    | admitted hfree => exact Nat.le_trans (permitsTaken_setStage_le_succ hin _) hfree
    | skipped | begun | finished | completed | told => exact hkeep fun _ => rfl

end ProbeAgent.Agent
