import ProbeAgent.Proofs.Scheduler.Course

/-!
# What holds after any steps

`Agent.Fate` says what a step can do to the task of one identity, and `Agent.Sound` is the invariant
of an agent.  The heart of the invariant is `pending`: a task whose latest run is still in flight is
running, and the time of its last run is the time at which that run started.  Numbers of runs only
grow and no task starts with one, so a run never meets a later task of its identity that has its
number.
-/

namespace ProbeAgent.Agent

variable {a b : Agent} {step : Step} {seen : List Happening}

/-! ## The fate of a task -/

/-- What a step from `a` to `b` can make of the task of an identity, and when it starts the task. -/
inductive Fate (a : Agent) (step : Step) (b : Agent) (id : TaskId) :
    (starts : List Instant) → Option ScheduledTask → Option ScheduledTask → Prop where
  | kept {found} : Fate a step b id [] found found
  | enqueued {spec now definition next} (hstep : step = .enqueue spec now) (hid : spec.id = id)
      (hnext : spec.timing.nextRunFrom now = .ok next) :
      Fate a step b id [] none (some (.fresh spec definition next))
  | removed {task} (hstep : step = .remove id) : Fate a step b id [] (some task) none
  | started {task now run} (hstep : step = .dispatch now) (hdue : task.isDue now = true)
      (hge : a.scheduler.nextRunId ≤ run) (hlt : run < b.scheduler.nextRunId) :
      Fate a step b id [now] (some task) (some (task.started now ⟨run⟩))
  | ended {task job now outcome next} (hstep : step = .complete job now) (hid : job.taskId = id)
      (hstage : a.stage? job = some (.measured outcome)) (hrun : task.latest = job.run)
      (hover : ∀ f ∈ b.flights, f.job = job → f.stage.isPending = false)
      (hnext : Scheduler.nextAfter task (Scheduler.conclusion outcome).1 now = .ok next) :
      Fate a step b id [] (some task)
        (some (task.ended (Scheduler.conclusion outcome).1 (Scheduler.conclusion outcome).2 next))

theorem Effect.fate (h : Effect a step seen b) (ha : Scheduler.Ascending a.scheduler.tasks)
    (id : TaskId) :
    Fate a step b id (startTimes id seen) (a.scheduler.find? id) (b.scheduler.find? id) := by
  cases h with
  | lost => exact .kept
  | signalled => exact .kept
  | forgotten => exact .kept
  | enqueued habsent hnext =>
    rw [withScheduler_scheduler, Scheduler.find?_enqueued habsent]
    split
    · rename_i hid
      rw [← hid, habsent]
      exact .enqueued rfl rfl hnext
    · exact .kept
  | removed =>
    rw [withScheduler_scheduler, Scheduler.find?_removed]
    split
    · -- If it was not there, the removal has changed nothing for it.
      rename_i hid
      cases a.scheduler.find? id with
      | none => exact .kept
      | some task => exact .removed (by rw [hid])
    · exact .kept
  | @dispatched now tasks jobs next hintact hdue =>
    rw [startTimes_started]
    change Fate _ _ _ _ _ _ (tasks.find? (·.id = id))
    cases hfind : a.scheduler.find? id with
    | none =>
      obtain ⟨hafter, hjobs⟩ := hdue.of_find?_eq_none hfind
      rw [hjobs, hafter]
      exact .kept
    | some task =>
      rcases hdue.of_find?_eq_some ha hfind with ⟨htask, run, hge, hlt, hafter, hjobs⟩ |
        ⟨hafter, hjobs⟩
      · rw [hjobs, hafter]
        exact .started rfl htask hge hlt
      · rw [hjobs, hafter]
        exact .kept
  | moved job told h =>
    rw [startTimes_told, h.scheduler_eq]
    exact .kept
  | @endedLast job now outcome task hintact hstage hcurrent =>
    rw [startTimes_recorded]
    change Fate _ _ _ _ _ _ ((a.scheduler.record job _).1.find? id)
    rw [Scheduler.record_find?]
    exact .kept
  | @ended job now outcome task next hintact hstage hcurrent hnext =>
    obtain ⟨hfind, hrun⟩ := Scheduler.current?_eq_some_iff.1 hcurrent
    have hid := Scheduler.id_of_find? hfind
    rw [startTimes_recorded]
    change Fate _ _ _ _ _ _ ((Scheduler.replaceTask (task.ended _ _ next) a.scheduler.tasks).find?
      (·.id = id))
    rw [Scheduler.find?_replaceTask, ScheduledTask.ended_id, hid, ← Scheduler.find?]
    by_cases hsame : job.taskId = id
    · rw [if_pos hsame, ← hsame, hfind]
      refine .ended rfl rfl hstage hrun (fun f hf hjob => ?_) hnext
      rcases mem_setStage.1 hf with ⟨-, hne⟩ | ⟨g, -, -, rfl⟩
      · exact absurd hjob hne
      · rfl
    · rw [if_neg hsame]
      exact .kept

/-! ## The invariant -/

structure Sound (a : Agent) : Prop where
  ascending : Scheduler.Ascending a.scheduler.tasks
  inOrder : a.InOrder
  nextRunId_pos : 0 < a.scheduler.nextRunId
  latest_lt : ∀ task ∈ a.scheduler.tasks, task.latest.value < a.scheduler.nextRunId
  flight_run : ∀ f ∈ a.flights, 0 < f.job.run.value ∧ f.job.run.value < a.scheduler.nextRunId
  results : a.scheduler.results.Consistent
  timely : ∀ task ∈ a.scheduler.tasks, task.Timely
  pending : ∀ f ∈ a.flights, f.stage.isPending = true → ∀ task,
    a.scheduler.current? f.job = some task →
      task.status = .running ∧ task.spec.timing.lastRun = some f.job.startedAt

namespace Effect

theorem nextRunId_le (h : Effect a step seen b) :
    a.scheduler.nextRunId ≤ b.scheduler.nextRunId := by
  cases h with
  | dispatched hintact hdue => exact hdue.next_le
  | moved job told h => exact Nat.le_of_eq (by rw [h.scheduler_eq])
  | endedLast hintact hstage hcurrent => exact Nat.le_of_eq (by rw [Scheduler.record_eq]; rfl)
  | ended hintact hstage hcurrent hnext => exact Nat.le_of_eq (by rw [Scheduler.record_eq]; rfl)
  | lost | signalled | forgotten | enqueued | removed => exact Nat.le_refl _

-- Lost tasks stay lost.
theorem intact (h : Effect a step seen b) (hb : b.scheduler.intact = true) :
    a.scheduler.intact = true := by
  cases h with
  | lost => cases hb
  | moved job told h =>
    rw [h.scheduler_eq] at hb
    exact hb
  | endedLast hintact hstage hcurrent => exact hintact
  | ended hintact hstage hcurrent hnext => exact hintact
  | dispatched hintact hdue => exact hintact
  | signalled | forgotten | enqueued | removed => exact hb

theorem ascending (h : Effect a step seen b) (ha : Scheduler.Ascending a.scheduler.tasks) :
    Scheduler.Ascending b.scheduler.tasks := by
  cases h with
  | enqueued habsent hnext =>
    exact Scheduler.ascending_insertTask ha (Scheduler.find?_eq_none_iff.1 habsent)
  | removed => exact List.Pairwise.filter _ ha
  | dispatched hintact hdue => exact ha.of_map_id hdue.map_id
  | moved job told h =>
    rw [h.scheduler_eq]
    exact ha
  | endedLast hintact hstage hcurrent =>
    rw [Scheduler.record_eq]
    exact ha
  | ended hintact hstage hcurrent hnext => exact ha.of_map_id (Scheduler.map_id_replaceTask _)
  | lost | signalled | forgotten => exact ha

theorem fate_of_mem (h : Effect a step seen b) (ha : Scheduler.Ascending a.scheduler.tasks)
    {t : ScheduledTask} (ht : t ∈ b.scheduler.tasks) :
    ∃ starts, Fate a step b t.id starts (a.scheduler.find? t.id) (some t) := by
  have hfind : b.scheduler.find? t.id = some t :=
    (Scheduler.find?_eq_some_iff (h.ascending ha)).2 ⟨ht, rfl⟩
  rw [← hfind]
  exact ⟨_, h.fate ha t.id⟩

theorem latest_lt (h : Effect a step seen b) (ha : a.Sound) {t : ScheduledTask}
    (ht : t ∈ b.scheduler.tasks) : t.latest.value < b.scheduler.nextRunId := by
  have hold {task : ScheduledTask} (hmem : task ∈ a.scheduler.tasks) :=
    Nat.lt_of_lt_of_le (ha.latest_lt task hmem) h.nextRunId_le
  obtain ⟨starts, hfate⟩ := h.fate_of_mem ha.ascending ht
  generalize hfound : a.scheduler.find? t.id = found at hfate
  cases hfate with
  | kept => exact hold (List.mem_of_find?_eq_some hfound)
  | enqueued hstep hid hnext => exact Nat.lt_of_lt_of_le ha.nextRunId_pos h.nextRunId_le
  | started hstep hdue hge hlt => exact hlt
  | ended hstep hid hstage hrun hover hnext =>
    have hlt := hold (List.mem_of_find?_eq_some hfound)
    exact hlt

theorem timely (h : Effect a step seen b) (ha : a.Sound) {t : ScheduledTask}
    (ht : t ∈ b.scheduler.tasks) : t.Timely := by
  obtain ⟨starts, hfate⟩ := h.fate_of_mem ha.ascending ht
  generalize hfound : a.scheduler.find? t.id = found at hfate
  cases hfate with
  | kept => exact ha.timely t (List.mem_of_find?_eq_some hfound)
  | @enqueued spec now definition next hstep hid hnext =>
    intro _ due hdue
    exact ⟨now, hnext.trans (congrArg Except.ok hdue)⟩
  | started hstep hdue hge hlt =>
    intro hwaiting
    cases hwaiting
  | @ended task job now outcome next hstep hid hstage hrun hover hnext =>
    intro _ due hdue
    exact ⟨now, Scheduler.nextAfter_eq_some (hnext.trans (congrArg Except.ok hdue))⟩

theorem results (h : Effect a step seen b) (ha : a.scheduler.results.Consistent) :
    b.scheduler.results.Consistent := by
  have hrecord (job : Job) (result : Option RunResult) :
      (a.scheduler.record job result).1.results.Consistent := by
    cases result with
    | none => exact ha
    | some result => exact ReportStore.record_consistent ha _ _ _
  cases h with
  | forgotten => exact ReportStore.remove_consistent ha _
  | moved job told h =>
    rw [h.scheduler_eq]
    exact ha
  | endedLast hintact hstage hcurrent => exact hrecord _ _
  | ended hintact hstage hcurrent hnext => exact hrecord _ _
  | lost | signalled | enqueued | removed | dispatched => exact ha

/-! ### Runs in flight -/

theorem inOrder (h : Effect a step seen b) (ha : a.Sound) : b.InOrder := by
  cases h with
  | dispatched hintact hdue =>
    -- The numbers of the new runs are larger than those of all runs before them.
    refine List.pairwise_append.2 ⟨ha.inOrder, List.pairwise_map.2 hdue.runs_ascending, ?_⟩
    intro f hf g hg
    obtain ⟨job, hjob, rfl⟩ := List.mem_map.1 hg
    exact Nat.lt_of_lt_of_le (ha.flight_run f hf).2 (hdue.mem_jobs hjob).2.1
  | moved job told h => exact ha.inOrder.of_jobs h.jobs
  | endedLast hintact hstage hcurrent =>
    exact ha.inOrder.of_jobs (jobs_setStage_sublist (a.withScheduler _) _ _)
  | ended hintact hstage hcurrent hnext =>
    exact ha.inOrder.of_jobs (jobs_setStage_sublist (a.withScheduler _) _ _)
  | lost | signalled | forgotten | enqueued | removed => exact ha.inOrder

-- Either the run was in flight before, and has not become pending, or the step started it.
theorem flight (h : Effect a step seen b) (ha : a.Sound) {f : Flight} (hf : f ∈ b.flights) :
    (∃ g ∈ a.flights, f.job = g.job ∧ (f.stage.isPending = true → g.stage.isPending = true)) ∨
    (∃ now, step = .dispatch now ∧ f.job.startedAt = now ∧
      a.scheduler.nextRunId ≤ f.job.run.value ∧ f.job.run.value < b.scheduler.nextRunId ∧
      .started f.job ∈ seen) := by
  -- A run that ends goes on to its reports, and is not pending any more.
  have hset {c : Agent} {job : Job} {events : List SchedulerEvent}
      (hflights : c.flights = a.flights)
      (hf : f ∈ (c.setStage job (.reporting events)).flights) :
      ∃ g ∈ a.flights, f.job = g.job ∧ (f.stage.isPending = true → g.stage.isPending = true) := by
    rcases mem_setStage.1 hf with ⟨hf, -⟩ | ⟨g, hg, hjob, rfl⟩
    · exact ⟨f, hflights ▸ hf, rfl, id⟩
    · exact ⟨g, hflights ▸ hg, hjob.symm, fun h => by cases h⟩
  cases h with
  | dispatched hintact hdue =>
    rcases List.mem_append.1 hf with hf | hf
    · exact .inl ⟨f, hf, rfl, id⟩
    · obtain ⟨job, hjob, rfl⟩ := List.mem_map.1 hf
      obtain ⟨hstart, hge, hlt⟩ := hdue.mem_jobs hjob
      exact .inr ⟨_, rfl, hstart, hge, hlt, List.mem_map_of_mem hjob⟩
  | moved job told h => exact .inl (h.mem_flights ha.inOrder hf)
  | endedLast hintact hstage hcurrent => exact .inl (hset rfl hf)
  | ended hintact hstage hcurrent hnext => exact .inl (hset rfl hf)
  | lost | signalled | forgotten | enqueued | removed => exact .inl ⟨f, hf, rfl, id⟩

theorem pending (h : Effect a step seen b) (ha : a.Sound) {f : Flight} (hf : f ∈ b.flights)
    (hpending : f.stage.isPending = true) {t : ScheduledTask}
    (ht : b.scheduler.current? f.job = some t) :
    t.status = .running ∧ t.spec.timing.lastRun = some f.job.startedAt := by
  obtain ⟨hfind, hlatest⟩ := Scheduler.current?_eq_some_iff.1 ht
  have hid := Scheduler.id_of_find? hfind
  obtain ⟨starts, hfate⟩ := h.fate_of_mem ha.ascending (List.mem_of_find?_eq_some hfind)
  generalize hfound : a.scheduler.find? t.id = found at hfate
  -- What became of the run against what became of the task: their numbers agree, which leaves a run
  -- from before with a task that was kept, and a new run with a task that was started.
  rcases h.flight ha hf with ⟨g, hg, hjob, hpend⟩ | ⟨now, hnow, hstart, hfirst, -⟩
  · have hrun := ha.flight_run g hg
    rw [hjob] at hlatest hid ⊢
    cases hfate with
    | kept =>
      rw [hid] at hfound
      exact ha.pending g hg (hpend hpending) t (Scheduler.current?_eq_some_iff.2 ⟨hfound, hlatest⟩)
    | enqueued hstep hid hnext =>
      -- A new task has had no run: its number is zero.
      rw [← hlatest] at hrun
      exact absurd hrun.1 (Nat.lt_irrefl 0)
    | started hstep hdue hge hlt =>
      rw [← hlatest] at hrun
      exact absurd hrun.2 (Nat.not_lt.2 hge)
    | ended hstep hid hstage hlast hover hnext =>
      -- The task is the one whose run ended, so that run is this one.
      have hflight := ha.inOrder.eq_of_run_eq hg ((stage?_eq_some_iff ha.inOrder).1 hstage)
        (hlatest.symm.trans hlast)
      have hover := hover f hf (hjob.trans (congrArg Flight.job hflight))
      rw [hpending] at hover
      cases hover
  · cases hfate with
    | kept =>
      have hlt := ha.latest_lt t (List.mem_of_find?_eq_some hfound)
      rw [hlatest] at hlt
      exact absurd hlt (Nat.not_lt.2 hfirst)
    | enqueued hstep hid hnext =>
      rw [hnow] at hstep
      cases hstep
    | started hstep hdue hge hlt =>
      rw [hnow] at hstep
      cases hstep
      exact ⟨rfl, congrArg some hstart.symm⟩
    | ended hstep hid hstage hlast hover hnext =>
      rw [hnow] at hstep
      cases hstep

theorem sound (h : Effect a step seen b) (ha : a.Sound) : b.Sound where
  ascending := h.ascending ha.ascending
  inOrder := h.inOrder ha
  nextRunId_pos := Nat.lt_of_lt_of_le ha.nextRunId_pos h.nextRunId_le
  latest_lt _ ht := h.latest_lt ha ht
  flight_run f hf := by
    rcases h.flight ha hf with ⟨g, hg, hjob, -⟩ | ⟨now, -, -, hge, hlt, -⟩
    · rw [hjob]
      exact ⟨(ha.flight_run g hg).1, Nat.lt_of_lt_of_le (ha.flight_run g hg).2 h.nextRunId_le⟩
    · exact ⟨Nat.lt_of_lt_of_le ha.nextRunId_pos hge, hlt⟩
  results := h.results ha.results
  timely _ ht := h.timely ha ht
  pending _ hf hpending _ ht := h.pending ha hf hpending ht

end Effect

theorem empty_sound (registry : MethodRegistry) (resultsPerTask maxConcurrent : Nat) :
    (empty registry (.empty resultsPerTask) maxConcurrent).Sound where
  ascending := .nil
  inOrder := .nil
  nextRunId_pos := Nat.one_pos
  latest_lt _ h := by cases h
  flight_run _ h := by cases h
  results := ReportStore.empty_consistent _
  timely _ h := by cases h
  pending _ h := by cases h

theorem Sound.afterAll (h : a.Sound) (steps : List Step) : (a.afterAll steps).Sound := by
  induction steps generalizing a with
  | nil => exact h
  | cons step rest ih => exact ih ((effect_after a step).sound h)

/-- The agents that come of an empty one. -/
inductive Reachable : Agent → Prop where
  | empty (registry : MethodRegistry) (resultsPerTask maxConcurrent : Nat) :
      Reachable (empty registry (.empty resultsPerTask) maxConcurrent)
  | after {a : Agent} (h : Reachable a) (step : Step) : Reachable (a.after step)

theorem Reachable.afterAll (h : a.Reachable) (steps : List Step) :
    (a.afterAll steps).Reachable := by
  induction steps generalizing a with
  | nil => exact h
  | cons step rest ih => exact ih (h.after step)

theorem Reachable.sound (h : a.Reachable) : a.Sound := by
  induction h with
  | empty registry resultsPerTask maxConcurrent => exact empty_sound _ _ _
  | after h step ih => exact (effect_after _ step).sound ih

end ProbeAgent.Agent
