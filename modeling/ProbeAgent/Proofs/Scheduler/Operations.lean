import ProbeAgent.Proofs.Scheduler.Tasks

/-!
# The operations of a scheduler

What is known of the scheduler after an operation that went well: under which conditions it does,
and what it changed.  The end of a run has three forms: the run is not the latest of its task and
nothing changes, the time after it has no date and the tasks are lost, or its task is replaced.
-/

namespace ProbeAgent.Scheduler

variable {s s' : Scheduler} {id : TaskId} {job : Job} {now : Instant}

theorem checkIntact_of_intact (h : s.intact = true) : s.checkIntact = .ok () := by
  rw [checkIntact, if_pos h]
  rfl

-- An operation that looks whether the tasks are intact, and goes well, has found them so.
theorem intact_of_bind {α : Type} {act : Unit → Checked α} {result : α}
    (h : (s.checkIntact >>= act) = .ok result) : s.intact = true ∧ act () = .ok result := by
  rw [checkIntact] at h
  split at h
  · rename_i hintact
    exact ⟨hintact, h⟩
  · cases h

/-! ## The set of tasks -/

theorem enqueue_eq_ok {spec : TaskSpec} (h : s.enqueue spec now = .ok (.ok s')) :
    s.intact = true ∧ s.find? spec.id = none ∧ ∃ definition next,
      s.registry.definition spec.method spec.options = .ok definition ∧
      spec.timing.nextRunFrom now = .ok next ∧
      s' = { s with tasks := insertTask (.fresh spec definition next) s.tasks } := by
  rw [enqueue] at h
  cases hdef : s.registry.definition spec.method spec.options with
  | error e =>
    rw [hdef] at h
    cases h
  | ok definition =>
    rw [hdef] at h
    obtain ⟨hintact, h⟩ := intact_of_bind h
    cases hfind : s.find? spec.id with
    | some task =>
      rw [hfind] at h
      cases h
    | none =>
      cases htask : ScheduledTask.ofSpec spec definition now with
      | error e =>
        rw [hfind, htask] at h
        cases h
      | ok task =>
        rw [hfind, htask] at h
        cases h
        obtain ⟨next, hnext, rfl⟩ := ScheduledTask.ofSpec_eq_ok htask
        exact ⟨hintact, rfl, definition, next, rfl, hnext, rfl⟩

theorem remove_eq_ok {spec : TaskSpec} (h : s.remove id = .ok (.ok (spec, s'))) :
    s.intact = true ∧ ∃ task, s.find? id = some task ∧ spec = task.spec ∧
      s' = { s.cancelRun task.cancel with tasks := s.tasks.filter (·.id ≠ id) } := by
  obtain ⟨hintact, h⟩ := intact_of_bind h
  cases hfind : s.find? id with
  | none =>
    rw [hfind] at h
    cases h
  | some task =>
    rw [hfind] at h
    cases h
    exact ⟨hintact, task, rfl, rfl, rfl⟩

-- A removal of intact tasks fails only for want of the task.
theorem find?_of_remove_ne_ok (hintact : s.intact = true)
    (h : ∀ spec s', s.remove id ≠ .ok (.ok (spec, s'))) : s.find? id = none := by
  cases hfind : s.find? id with
  | none => rfl
  | some task =>
    refine absurd ?_ (h task.spec
      { s.cancelRun task.cancel with tasks := s.tasks.filter (·.id ≠ id) })
    rw [remove, checkIntact_of_intact hintact, hfind]
    rfl

theorem stop_eq_ok {stopped : Bool} (h : s.stop id = .ok (.ok (stopped, s'))) :
    s.intact = true ∧ ∃ task, s.find? id = some task ∧ stopped = task.cancel.isSome ∧
      s' = s.cancelRun task.cancel := by
  obtain ⟨hintact, h⟩ := intact_of_bind h
  cases hfind : s.find? id with
  | none =>
    rw [hfind] at h
    cases h
  | some task =>
    rw [hfind] at h
    cases h
    exact ⟨hintact, task, rfl, rfl, rfl⟩

theorem stopAll_eq_ok (h : s.stopAll = .ok s') :
    s.intact = true ∧ s' = { s with cancelled := s.tasks.filterMap (·.cancel) ++ s.cancelled } := by
  obtain ⟨hintact, h⟩ := intact_of_bind h
  cases h
  exact ⟨hintact, rfl⟩

theorem dispatch_eq_ok {jobs : List Job} (h : s.dispatch now = .ok (jobs, s')) :
    s.intact = true ∧ ∃ tasks next, StartsDue now s.nextRunId s.tasks tasks jobs next ∧
      s' = { s with tasks := tasks, nextRunId := next } := by
  obtain ⟨hintact, h⟩ := intact_of_bind h
  cases hdue : dispatchDue now s.tasks s.nextRunId with
  | error e =>
    rw [hdue] at h
    cases h
  | ok result =>
    obtain ⟨tasks, jobs', next⟩ := result
    rw [hdue] at h
    cases h
    exact ⟨hintact, tasks, next, startsDue_of_dispatchDue hdue, rfl⟩

/-! ### The task of an identity -/

theorem find?_enqueued {spec : TaskSpec} (habsent : s.find? spec.id = none)
    (definition : Definition) (next : Option Instant) (id : TaskId) :
    ({ s with tasks := insertTask (.fresh spec definition next) s.tasks } : Scheduler).find? id =
      if spec.id = id then some (.fresh spec definition next) else s.find? id := by
  have hnew : ∀ other ∈ s.tasks, other.id ≠ spec.id := find?_eq_none_iff.1 habsent
  show (insertTask (.fresh spec definition next) s.tasks).find? (·.id = id) = _
  rw [find?_insertTask hnew, ScheduledTask.fresh_id]
  rfl

theorem find?_removed (s : Scheduler) (cancelled : List RunId) (gone id : TaskId) :
    ({ s with
      cancelled := cancelled
      tasks := s.tasks.filter (·.id ≠ gone) } : Scheduler).find? id =
      if id = gone then none else s.find? id :=
  find?_filter_ne gone id

/-! ## The end of a run -/

theorem current?_eq_some_iff {task : ScheduledTask} :
    s.current? job = some task ↔ s.find? job.taskId = some task ∧ task.latest = job.run := by
  rw [current?, Option.filter_eq_some_iff, decide_eq_true_eq]

theorem id_of_find? {task : ScheduledTask} (h : s.find? id = some task) : task.id = id := by
  simpa using List.find?_some h

theorem find?_ended {task : ScheduledTask} (h : s.find? id = some task) (status : TaskStatus)
    (error : Option String) (next : Option Instant) :
    (replaceTask (task.ended status error next) s.tasks).find? (·.id = id) =
      some (task.ended status error next) := by
  rw [find?_replaceTask, ScheduledTask.ended_id, if_pos (id_of_find? h), ← find?, h]
  rfl

theorem record_none (s : Scheduler) (job : Job) : s.record job none = (s, none) := rfl

theorem record_some (s : Scheduler) (job : Job) (result : RunResult) :
    s.record job (some result) =
      ({ s with results := (s.results.record job.taskId job.startedAt result).1 },
        some (s.results.record job.taskId job.startedAt result).2) := rfl

-- Recording changes nothing but the store.
theorem record_eq (s : Scheduler) (job : Job) (result : Option RunResult) :
    (s.record job result).1 = { s with results := (s.record job result).1.results } := by
  cases result with
  | none => rfl
  | some result => rfl

@[simp] theorem record_tasks (s : Scheduler) (job : Job) (result : Option RunResult) :
    (s.record job result).1.tasks = s.tasks := by rw [record_eq]

@[simp] theorem record_find? (s : Scheduler) (job : Job) (result : Option RunResult) (id : TaskId) :
    (s.record job result).1.find? id = s.find? id := by rw [find?, record_tasks, find?]

theorem complete_of_stale (h : s.intact = true → s.current? job = none) (outcome : Outcome)
    (now : Instant) : s.complete job outcome now = ⟨s, none, []⟩ := by
  rw [complete]
  split
  · rfl
  · rename_i hintact
    rw [h (by simpa using hintact)]

theorem complete_of_next (hintact : s.intact = true) {task : ScheduledTask}
    (hcurrent : s.current? job = some task) {outcome : Outcome} {next : Option Instant}
    (hnext : nextAfter task (conclusion outcome).1 now = .ok next) :
    s.complete job outcome now =
      ⟨{ (s.record job (resultOf outcome)).1 with
          tasks := replaceTask
            (task.ended (conclusion outcome).1 (conclusion outcome).2 next) s.tasks },
        (s.record job (resultOf outcome)).2,
        endEvents job.taskId (conclusion outcome).1 (conclusion outcome).2⟩ := by
  rw [complete, hintact, hcurrent]
  simp only [Bool.not_true, Bool.false_eq_true, if_false, hnext, record_tasks]

-- The result is recorded before the next run is looked for, so it is kept also if that fails.
theorem complete_of_current (hintact : s.intact = true) {task : ScheduledTask}
    (hcurrent : s.current? job = some task) (outcome : Outcome) (now : Instant) :
    s.complete job outcome now =
        ⟨{ (s.record job (resultOf outcome)).1 with intact := false },
          (s.record job (resultOf outcome)).2, []⟩ ∨
      ∃ next, nextAfter task (conclusion outcome).1 now = .ok next ∧
        s.complete job outcome now =
          ⟨{ (s.record job (resultOf outcome)).1 with
              tasks := replaceTask
                (task.ended (conclusion outcome).1 (conclusion outcome).2 next) s.tasks },
            (s.record job (resultOf outcome)).2,
            endEvents job.taskId (conclusion outcome).1 (conclusion outcome).2⟩ := by
  cases hnext : nextAfter task (conclusion outcome).1 now with
  | error e =>
    -- The time after the run has no date: the tasks are lost.
    left
    rw [complete, hintact, hcurrent]
    simp only [Bool.not_true, Bool.false_eq_true, if_false, hnext]
  | ok next => exact .inr ⟨next, rfl, complete_of_next hintact hcurrent hnext⟩

theorem conclusion_ne_running (outcome : Outcome) : (conclusion outcome).1 ≠ .running := by
  rcases outcome with e | result
  · cases e <;> simp [conclusion]
  · simp [conclusion]

theorem nextAfter_eq_some {task : ScheduledTask} {status : TaskStatus} {next : Instant}
    (h : nextAfter task status now = .ok (some next)) :
    task.spec.timing.nextRunFrom now = .ok (some next) := by
  rw [nextAfter] at h
  -- A task whose run failed gets no next run.
  split at h
  · cases h
  · exact h

end ProbeAgent.Scheduler
