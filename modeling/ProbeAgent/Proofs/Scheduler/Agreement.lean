import ProbeAgent.Proofs.Scheduler.Completion

/-!
# Task records and runs in flight

A run is in flight from its dispatch until its completion has been carried out.  In every agent that
comes of an empty one the record of a task agrees with that: a running task has exactly one run in
flight that counts, and any other task has none.
-/

namespace ProbeAgent

/-! ## Records -/

namespace ScheduledTask

/-- What a record holds besides its status agrees with it. -/
structure Coherent (task : ScheduledTask) : Prop where
  cancel_eq : task.cancel = if task.status = .running then some task.latest else none
  error_iff : task.status = .error ↔ task.lastError.isSome = true
  nextRun_eq_none : task.status = .error → task.nextRun = none

theorem fresh_coherent (spec : TaskSpec) (definition : Definition) (next : Option Instant) :
    (fresh spec definition next).Coherent :=
  ⟨rfl, by simp [fresh], fun h => by cases h⟩

theorem started_coherent (task : ScheduledTask) (now : Instant) (run : RunId) :
    (task.started now run).Coherent :=
  ⟨rfl, by simp [started], fun h => by cases h⟩

theorem ended_coherent {task : ScheduledTask} {outcome : Scheduler.Outcome} {now : Instant}
    {next : Option Instant}
    (hnext : Scheduler.nextAfter task (Scheduler.conclusion outcome).1 now = .ok next) :
    (task.ended (Scheduler.conclusion outcome).1 (Scheduler.conclusion outcome).2 next).Coherent where
  cancel_eq := (if_neg (Scheduler.conclusion_ne_running outcome)).symm
  error_iff := by
    rcases outcome with e | result
    · cases e <;> simp [Scheduler.conclusion, ended]
    · simp [Scheduler.conclusion, ended]
  nextRun_eq_none herror := by
    change (Scheduler.conclusion outcome).1 = .error at herror
    rw [Scheduler.nextAfter, if_pos herror] at hnext
    cases hnext
    rfl

theorem Coherent.running_iff {task : ScheduledTask} (h : task.Coherent) :
    task.status = .running ↔ task.cancel.isSome = true := by
  rw [h.cancel_eq]
  by_cases hrunning : task.status = .running
  · simp [hrunning]
  · simp [hrunning]

theorem Coherent.latest_of_cancel {task : ScheduledTask} (h : task.Coherent) {run : RunId}
    (hcancel : task.cancel = some run) : run = task.latest := by
  rw [h.cancel_eq] at hcancel
  split at hcancel
  · exact (Option.some.inj hcancel).symm
  · cases hcancel

/-- Whether a run is the latest of the task. -/
def isLatest (task : ScheduledTask) (job : Job) : Bool :=
  job.taskId = task.id ∧ job.run = task.latest

end ScheduledTask

namespace Agent

variable {a b : Agent} {step : Step} {seen : List Happening} {job : Job} {id : TaskId}

theorem Effect.coherent (h : Effect a step seen b) (ha : Scheduler.Ascending a.scheduler.tasks)
    (hold : ∀ task ∈ a.scheduler.tasks, task.Coherent) {t : ScheduledTask}
    (ht : t ∈ b.scheduler.tasks) : t.Coherent := by
  obtain ⟨starts, hfate⟩ := h.fate_of_mem ha ht
  generalize hfound : a.scheduler.find? t.id = found at hfate
  cases hfate with
  | kept => exact hold t (List.mem_of_find?_eq_some hfound)
  | enqueued hstep hid hnext => exact ScheduledTask.fresh_coherent _ _ _
  | started hstep hdue hge hlt => exact ScheduledTask.started_coherent _ _ _
  | ended hstep hid hstage hrun hover hnext => exact ScheduledTask.ended_coherent hnext

theorem Reachable.coherent (h : a.Reachable) : ∀ task ∈ a.scheduler.tasks, task.Coherent := by
  induction h with
  | empty registry resultsPerTask maxConcurrent =>
    intro task htask
    cases htask
  | after h step ih =>
    intro task htask
    exact (effect_after _ step).coherent h.sound.ascending ih htask

/-- Only a removal changes a task that failed. -/
theorem Effect.find?_of_error (h : Effect a step seen b) (ha : a.Sound) {task : ScheduledTask}
    (hfind : a.scheduler.find? id = some task) (herror : task.status = .error)
    (hstep : step ≠ .remove id) : b.scheduler.find? id = some task := by
  have hfate := h.fate ha.ascending id
  rw [hfind] at hfate
  generalize startTimes id seen = starts at hfate
  generalize b.scheduler.find? id = found at hfate ⊢
  cases hfate with
  | kept => rfl
  | removed hremove => exact absurd hremove hstep
  | started hdispatch hdue hge hlt =>
    have hwaiting := (ScheduledTask.isDue_iff.1 hdue).1
    simp [ScheduledTask.isWaiting, herror] at hwaiting
  | @ended _ job now outcome next hcomplete hid hstage hrun hover hnext =>
    -- The run that ended would be in flight for a task that is not running.
    have hcurrent := Scheduler.current?_eq_some_iff.2 ⟨hid ▸ hfind, hrun⟩
    have hflight := (stage?_eq_some_iff ha.inOrder).1 hstage
    have hrunning := (ha.pending _ hflight rfl task hcurrent).1
    rw [herror] at hrunning
    cases hrunning

theorem find?_of_error_afterAll (ha : a.Sound) {task : ScheduledTask}
    (hfind : a.scheduler.find? id = some task) (herror : task.status = .error) {steps : List Step}
    (hsteps : Step.remove id ∉ steps) : (a.afterAll steps).scheduler.find? id = some task := by
  induction steps generalizing a with
  | nil => exact hfind
  | cons step rest ih =>
    have heffect := effect_after a step
    have hstep : step ≠ .remove id := fun heq => hsteps (heq ▸ List.mem_cons_self)
    exact ih (heffect.sound ha) (heffect.find?_of_error ha hfind herror hstep)
      fun hmem => hsteps (.tail _ hmem)

end Agent

/-! ## Runs in flight -/

def Happening.startedJob? : Happening → Option Job
  | started job => some job
  | recorded _ | told _ => none

/-- The runs that started, in order. -/
def startedJobs (seen : List Happening) : List Job := seen.filterMap (·.startedJob?)

theorem mem_startedJobs {seen : List Happening} {job : Job} :
    job ∈ startedJobs seen ↔ .started job ∈ seen := by
  rw [startedJobs, List.mem_filterMap]
  constructor
  · rintro ⟨happening, hmem, hjob⟩
    cases happening with
    | started other =>
      cases hjob
      exact hmem
    | recorded event => cases hjob
    | told event => cases hjob
  · exact fun hmem => ⟨_, hmem, rfl⟩

theorem startedJobs_append (seen later : List Happening) :
    startedJobs (seen ++ later) = startedJobs seen ++ startedJobs later :=
  List.filterMap_append

namespace Agent

/-- The run whose completion a step carries out. -/
def completedBy? (a : Agent) : Step → Option Job
  | .complete job now =>
    match a.stage? job with
    | some (.measured outcome) =>
      if (a.scheduler.complete job outcome now).scheduler.intact then some job else none
    | _ => none
  | _ => none

/-- The runs that are in flight after a step, from those before it. -/
def inFlightAfter (a : Agent) (runs : List Job) (step : Step) : List Job :=
  (runs ++ startedJobs (a.shows step)).filter fun job => a.completedBy? step ≠ some job

/-- The runs that are in flight after some steps.  A run that ends early, because it does not count
any more, stays on the list. -/
def inFlight (a : Agent) (runs : List Job) : List Step → List Job
  | [] => runs
  | step :: rest => (a.after step).inFlight (a.inFlightAfter runs step) rest

variable {a b : Agent} {step : Step} {seen : List Happening} {job : Job} {id : TaskId}
  {runs : List Job}

theorem mem_inFlightAfter :
    job ∈ a.inFlightAfter runs step ↔
      (job ∈ runs ∨ .started job ∈ a.shows step) ∧ a.completedBy? step ≠ some job := by
  rw [inFlightAfter, List.mem_filter, List.mem_append, mem_startedJobs, decide_eq_true_eq]

theorem completedBy?_eq_some_iff :
    a.completedBy? step = some job ↔ ∃ now outcome, step = .complete job now ∧
      a.stage? job = some (.measured outcome) ∧
      (a.scheduler.complete job outcome now).scheduler.intact = true := by
  constructor
  · intro h
    unfold completedBy? at h
    split at h
    · rename_i other now
      split at h
      · rename_i outcome hstage
        split at h
        · rename_i hintact
          cases h
          exact ⟨now, outcome, rfl, hstage, hintact⟩
        · cases h
      · cases h
    · cases h
  · rintro ⟨now, outcome, rfl, hstage, hintact⟩
    simp only [completedBy?, hstage, hintact, if_pos]

/-- A completion that is carried out ends the run of its task. -/
theorem find?_of_completedBy? (h : a.completedBy? step = some job) {task : ScheduledTask}
    (hcurrent : a.scheduler.current? job = some task) :
    ∃ t, (a.after step).scheduler.find? job.taskId = some t ∧ t.status ≠ .running := by
  obtain ⟨now, outcome, rfl, hstage, hintact⟩ := completedBy?_eq_some_iff.1 h
  have hbefore : a.scheduler.intact = true := by
    cases hlost : a.scheduler.intact with
    | true => rfl
    | false =>
      rw [Scheduler.complete_of_stale (fun h => by rw [hlost] at h; cases h), hlost] at hintact
      cases hintact
  rw [after, complete_of_measured hstage]
  rcases Scheduler.complete_of_current hbefore hcurrent outcome now with hcomplete |
    ⟨next, -, hcomplete⟩
  · rw [hcomplete] at hintact
    cases hintact
  · rw [hcomplete]
    exact ⟨_, Scheduler.find?_ended (Scheduler.current?_eq_some_iff.1 hcurrent).1 _ _ _,
      Scheduler.conclusion_ne_running outcome⟩

namespace Effect

theorem of_started (h : Effect a step seen b) (hjob : .started job ∈ seen) :
    step = .dispatch job.startedAt ∧ a.scheduler.nextRunId ≤ job.run.value ∧
      job.run.value < b.scheduler.nextRunId := by
  cases h with
  | @dispatched now tasks jobs next hintact hdue =>
    obtain ⟨other, hother, heq⟩ := List.mem_map.1 hjob
    cases heq
    obtain ⟨rfl, hbounds⟩ := hdue.mem_jobs hother
    exact ⟨rfl, hbounds⟩
  | moved job told h => simp at hjob
  | endedLast hintact hstage hcurrent => simp at hjob
  | ended hintact hstage hcurrent hnext => simp at hjob
  | lost | signalled | forgotten | enqueued | removed => cases hjob

theorem startedJobs_ascending (h : Effect a step seen b) :
    (startedJobs seen).Pairwise (·.run.value < ·.run.value) := by
  have hnil {later : List Happening} (hlater : ∀ job, .started job ∉ later) :
      (startedJobs later).Pairwise (·.run.value < ·.run.value) := by
    rw [List.eq_nil_iff_forall_not_mem.2 fun job => mt mem_startedJobs.1 (hlater job)]
    exact .nil
  cases h with
  | @dispatched now tasks jobs next hintact hdue =>
    have hjobs : startedJobs (jobs.map .started) = jobs := by
      rw [startedJobs, List.filterMap_map]
      exact List.filterMap_some
    rw [hjobs]
    exact hdue.runs_ascending
  | moved job told h => exact hnil (by simp)
  | endedLast hintact hstage hcurrent => exact hnil (by simp)
  | ended hintact hstage hcurrent hnext => exact hnil (by simp)
  | lost | signalled | forgotten | enqueued | removed => exact .nil

/-- A task that is running after a step was so before it, or the step started its latest run. -/
theorem started_of_running (h : Effect a step seen b)
    (ha : Scheduler.Ascending a.scheduler.tasks) {t : ScheduledTask}
    (hfind : b.scheduler.find? id = some t) (hrunning : t.status = .running) :
    a.scheduler.find? id = some t ∨ ∃ now, .started ⟨id, t.latest, now⟩ ∈ seen := by
  cases h with
  | lost | signalled | forgotten => exact .inl hfind
  | enqueued habsent hnext =>
    rw [withScheduler_scheduler, Scheduler.find?_enqueued habsent] at hfind
    split at hfind
    · cases hfind
      cases hrunning
    · exact .inl hfind
  | removed =>
    rw [withScheduler_scheduler, Scheduler.find?_removed] at hfind
    split at hfind
    · cases hfind
    · exact .inl hfind
  | @dispatched now tasks jobs next hintact hdue =>
    change tasks.find? (·.id = id) = some t at hfind
    cases hbefore : a.scheduler.find? id with
    | none =>
      rw [(hdue.of_find?_eq_none hbefore).1] at hfind
      cases hfind
    | some task =>
      rcases hdue.of_find?_eq_some ha hbefore with ⟨-, run, -, -, hafter, hjobs⟩ | ⟨hafter, -⟩
      · rw [hafter] at hfind
        cases hfind
        have hmem : ⟨id, ⟨run⟩, now⟩ ∈ jobs.filter (·.taskId = id) := by
          rw [hjobs]
          exact List.mem_singleton_self _
        exact .inr ⟨now, List.mem_map_of_mem (List.mem_filter.1 hmem).1⟩
      · rw [hafter] at hfind
        exact .inl hfind
  | moved job told h =>
    rw [h.scheduler_eq] at hfind
    exact .inl hfind
  | endedLast hintact hstage hcurrent =>
    change (a.scheduler.record _ _).1.find? id = some t at hfind
    rw [Scheduler.record_find?] at hfind
    exact .inl hfind
  | @ended job now outcome task next hintact hstage hcurrent hnext =>
    have hid := Scheduler.id_of_find? (Scheduler.current?_eq_some_iff.1 hcurrent).1
    change (Scheduler.replaceTask (task.ended _ _ next) a.scheduler.tasks).find? (·.id = id) =
      some t at hfind
    by_cases hsame : job.taskId = id
    · subst hsame
      rw [Scheduler.find?_ended (Scheduler.current?_eq_some_iff.1 hcurrent).1] at hfind
      cases hfind
      exact absurd hrunning (Scheduler.conclusion_ne_running outcome)
    · rw [Scheduler.find?_replaceTask, ScheduledTask.ended_id, hid, if_neg hsame] at hfind
      exact .inl hfind

end Effect

theorem completedBy?_ne_of_started (hjob : .started job ∈ a.shows step) (other : Job) :
    a.completedBy? step ≠ some other := by
  obtain ⟨rfl, -⟩ := (effect_after a step).of_started hjob
  intro hcompleted
  cases hcompleted

theorem isPending_eq_false_of_completedBy? (h : a.completedBy? step = some job) {f : Flight}
    (hf : f ∈ (a.after step).flights) (hjob : f.job = job) : f.stage.isPending = false := by
  obtain ⟨now, outcome, rfl, hstage, -⟩ := completedBy?_eq_some_iff.1 h
  rw [after, complete_of_measured hstage] at hf
  rcases mem_setStage.1 hf with ⟨-, hne⟩ | ⟨g, -, -, rfl⟩
  · exact absurd hjob hne
  · rfl

-- A completion that is not carried out has found that its run does not count, or broken off.
theorem completedBy?_or_tasks_eq {outcome : Scheduler.Outcome}
    (hstage : a.stage? job = some (.measured outcome)) (now : Instant) :
    a.completedBy? (.complete job now) = some job ∨
      (a.after (.complete job now)).scheduler.tasks = a.scheduler.tasks := by
  rw [completedBy?_eq_some_iff, after, complete_of_measured hstage]
  by_cases hstale : a.scheduler.intact = true → a.scheduler.current? job = none
  · right
    rw [Scheduler.complete_of_stale hstale]
    rfl
  · obtain ⟨hintact, hsome⟩ := Classical.not_imp.1 hstale
    obtain ⟨task, hcurrent⟩ := Option.ne_none_iff_exists'.1 hsome
    rcases Scheduler.complete_of_current hintact hcurrent outcome now with hcomplete |
      ⟨next, -, hcomplete⟩
    · right
      rw [hcomplete]
      exact Scheduler.record_tasks _ _ _
    · left
      refine ⟨now, outcome, rfl, hstage, ?_⟩
      rw [hcomplete, Scheduler.record_eq]
      exact hintact

/-- The runs in flight that count are those of the running tasks. -/
structure Agrees (a : Agent) (runs : List Job) : Prop where
  ascending : runs.Pairwise (·.run.value < ·.run.value)
  bounds : ∀ job ∈ runs, 0 < job.run.value ∧ job.run.value < a.scheduler.nextRunId
  pending : ∀ f ∈ a.flights, f.stage.isPending = true → f.job ∈ runs
  running : ∀ job ∈ runs, ∀ task, a.scheduler.current? job = some task → task.status = .running
  exists_run : ∀ task ∈ a.scheduler.tasks, task.status = .running →
    ∃ job ∈ runs, a.scheduler.current? job = some task

namespace Agrees

theorem eq_of_run_eq (h : a.Agrees runs) {other : Job} (hjob : job ∈ runs) (hother : other ∈ runs)
    (hrun : job.run = other.run) : job = other := by
  have hflights : InOrder { a with flights := runs.map (Flight.mk · .queued) } :=
    List.pairwise_map.2 h.ascending
  have heq := hflights.eq_of_run_eq (List.mem_map_of_mem hjob) (List.mem_map_of_mem hother) hrun
  exact congrArg Flight.job heq

theorem after_ascending (h : a.Agrees runs) (step : Step) :
    (a.inFlightAfter runs step).Pairwise (·.run.value < ·.run.value) := by
  have heffect := effect_after a step
  refine List.Pairwise.filter _ (List.pairwise_append.2
    ⟨h.ascending, heffect.startedJobs_ascending, fun job hjob new hnew => ?_⟩)
  exact Nat.lt_of_lt_of_le (h.bounds job hjob).2 (heffect.of_started (mem_startedJobs.1 hnew)).2.1

theorem after_bounds (ha : a.Sound) (h : a.Agrees runs)
    (hjob : job ∈ runs ∨ .started job ∈ a.shows step) :
    0 < job.run.value ∧ job.run.value < (a.after step).scheduler.nextRunId := by
  have heffect := effect_after a step
  rcases hjob with hjob | hnew
  · exact ⟨(h.bounds job hjob).1, Nat.lt_of_lt_of_le (h.bounds job hjob).2 heffect.nextRunId_le⟩
  · obtain ⟨-, hge, hlt⟩ := heffect.of_started hnew
    exact ⟨Nat.lt_of_lt_of_le ha.nextRunId_pos hge, hlt⟩

theorem after_pending (ha : a.Sound) (h : a.Agrees runs) {f : Flight}
    (hf : f ∈ (a.after step).flights) (hpending : f.stage.isPending = true) :
    f.job ∈ a.inFlightAfter runs step := by
  apply mem_inFlightAfter.2
  rcases (effect_after a step).flight ha hf with ⟨g, hg, hjob, hpend⟩ | ⟨-, -, -, -, -, hnew⟩
  · refine ⟨.inl (hjob ▸ h.pending g hg (hpend hpending)), fun hcompleted => ?_⟩
    rw [isPending_eq_false_of_completedBy? hcompleted hf rfl] at hpending
    cases hpending
  · exact ⟨.inr hnew, completedBy?_ne_of_started hnew _⟩

theorem after_running (ha : a.Sound) (h : a.Agrees runs)
    (hjob : job ∈ a.inFlightAfter runs step) {t : ScheduledTask}
    (ht : (a.after step).scheduler.current? job = some t) : t.status = .running := by
  obtain ⟨hjob, hcompleted⟩ := mem_inFlightAfter.1 hjob
  obtain ⟨hfind, hlatest⟩ := Scheduler.current?_eq_some_iff.1 ht
  have heffect := effect_after a step
  have hfate := heffect.fate ha.ascending job.taskId
  rw [hfind] at hfate
  generalize startTimes job.taskId (a.shows step) = starts at hfate
  generalize hfound : a.scheduler.find? job.taskId = found at hfate
  cases hfate with
  | kept =>
    rcases hjob with hjob | hnew
    · exact h.running job hjob t (Scheduler.current?_eq_some_iff.2 ⟨hfound, hlatest⟩)
    · -- A new run has a number that no task had before.
      have hlt := ha.latest_lt t (List.mem_of_find?_eq_some hfound)
      rw [hlatest] at hlt
      exact absurd hlt (Nat.not_lt.2 (heffect.of_started hnew).2.1)
  | enqueued hstep hid hnext =>
    have hpos := (h.after_bounds ha hjob).1
    rw [← hlatest] at hpos
    cases hpos
  | started hstep hdue hge hlt => rfl
  | @ended task other now outcome next hstep hid hstage hrun hover hnext =>
    subst hstep
    have hpending := h.pending _ ((stage?_eq_some_iff ha.inOrder).1 hstage) rfl
    rcases completedBy?_or_tasks_eq hstage now with hother | htasks
    · -- The run that ended is this one, since both have the number of the task.
      rcases hjob with hjob | hnew
      · rw [h.eq_of_run_eq hjob hpending (hlatest.symm.trans hrun)] at hcompleted
        exact absurd hother hcompleted
      · exact absurd hother (completedBy?_ne_of_started hnew _)
    · -- Without a completion the task is as it was, which is running.
      have hcurrent : a.scheduler.current? other = some task :=
        Scheduler.current?_eq_some_iff.2 ⟨by rw [hid, hfound], hrun⟩
      rw [Scheduler.find?, htasks, ← Scheduler.find?, hfound] at hfind
      rw [← Option.some.inj hfind]
      exact h.running other hpending task hcurrent

theorem after_exists_run (ha : a.Sound) (h : a.Agrees runs) {t : ScheduledTask}
    (ht : t ∈ (a.after step).scheduler.tasks) (hrunning : t.status = .running) :
    ∃ job ∈ a.inFlightAfter runs step, (a.after step).scheduler.current? job = some t := by
  have heffect := effect_after a step
  have hafter : (a.after step).scheduler.find? t.id = some t :=
    (Scheduler.find?_eq_some_iff (heffect.ascending ha.ascending)).2 ⟨ht, rfl⟩
  rcases heffect.started_of_running ha.ascending hafter hrunning with hbefore | ⟨now, hnew⟩
  · obtain ⟨job, hjob, hcurrent⟩ := h.exists_run t (List.mem_of_find?_eq_some hbefore) hrunning
    obtain ⟨hfind, hlatest⟩ := Scheduler.current?_eq_some_iff.1 hcurrent
    have hid := Scheduler.id_of_find? hfind
    rw [hid] at hafter
    refine ⟨job, mem_inFlightAfter.2 ⟨.inl hjob, fun hcompleted => ?_⟩,
      Scheduler.current?_eq_some_iff.2 ⟨hafter, hlatest⟩⟩
    obtain ⟨t', ht', hended⟩ := find?_of_completedBy? hcompleted hcurrent
    rw [hafter] at ht'
    cases ht'
    exact hended hrunning
  · exact ⟨_, mem_inFlightAfter.2 ⟨.inr hnew, completedBy?_ne_of_started hnew _⟩,
      Scheduler.current?_eq_some_iff.2 ⟨hafter, rfl⟩⟩

theorem after (ha : a.Sound) (h : a.Agrees runs) (step : Step) :
    (a.after step).Agrees (a.inFlightAfter runs step) where
  ascending := h.after_ascending step
  bounds _ hjob := h.after_bounds ha (mem_inFlightAfter.1 hjob).1
  pending _ hf hpending := h.after_pending ha hf hpending
  running _ hjob _ ht := h.after_running ha hjob ht
  exists_run _ ht hrunning := h.after_exists_run ha ht hrunning

theorem afterAll (ha : a.Sound) (h : a.Agrees runs) (steps : List Step) :
    (a.afterAll steps).Agrees (a.inFlight runs steps) := by
  induction steps generalizing a runs with
  | nil => exact h
  | cons step rest ih => exact ih ((effect_after a step).sound ha) (h.after ha step)

/-- A task has one run in flight that counts if it is running, and none otherwise. -/
theorem length_filter_isLatest (ha : a.Sound) (h : a.Agrees runs) {task : ScheduledTask}
    (htask : task ∈ a.scheduler.tasks) :
    (runs.filter task.isLatest).length = if task.status = .running then 1 else 0 := by
  have hfind : a.scheduler.find? task.id = some task :=
    (Scheduler.find?_eq_some_iff ha.ascending).2 ⟨htask, rfl⟩
  have hmem {job : Job} : job ∈ runs.filter task.isLatest ↔
      job ∈ runs ∧ a.scheduler.current? job = some task := by
    rw [List.mem_filter, ScheduledTask.isLatest, decide_eq_true_eq,
      Scheduler.current?_eq_some_iff]
    constructor
    · rintro ⟨hjob, hid, hrun⟩
      exact ⟨hjob, by rw [hid, hfind], hrun.symm⟩
    · rintro ⟨hjob, hcurrent, hrun⟩
      exact ⟨hjob, (Scheduler.id_of_find? hcurrent).symm, hrun.symm⟩
  split
  · rename_i hrunning
    obtain ⟨job, hjob, hcurrent⟩ := h.exists_run task htask hrunning
    have hfilter : ∀ other ∈ runs.filter task.isLatest, other = job := by
      intro other hother
      obtain ⟨hother, hcurrent'⟩ := hmem.1 hother
      have hrun := (Scheduler.current?_eq_some_iff.1 hcurrent).2
      have hrun' := (Scheduler.current?_eq_some_iff.1 hcurrent').2
      exact h.eq_of_run_eq hother hjob (hrun'.symm.trans hrun)
    have hascending := h.ascending.filter task.isLatest
    cases hruns : runs.filter task.isLatest with
    | nil =>
      have hin := hmem.2 ⟨hjob, hcurrent⟩
      rw [hruns] at hin
      cases hin
    | cons first rest =>
      rw [hruns] at hfilter hascending
      -- A second one would have a larger number, and it has the same.
      have hrest : rest = [] := by
        apply List.eq_nil_iff_forall_not_mem.2
        intro other hother
        have hlt := (List.pairwise_cons.1 hascending).1 other hother
        rw [hfilter first List.mem_cons_self, hfilter other (.tail _ hother)] at hlt
        exact Nat.lt_irrefl _ hlt
      rw [hrest]
      rfl
  · rename_i hidle
    rw [List.length_eq_zero_iff, List.eq_nil_iff_forall_not_mem]
    intro job hjob
    obtain ⟨hjob, hcurrent⟩ := hmem.1 hjob
    exact hidle (h.running job hjob task hcurrent)

end Agrees

/-! ### Where the runs in flight are -/

/-- The run has not come to the end of its stages. -/
def Aboard (a : Agent) (job : Job) : Prop :=
  ∃ stage, a.stage? job = some stage ∧ stage.isPending = true

/-- A pending run leaves only if it breaks off, does not count, or completes. -/
theorem Aboard.after (h : a.Aboard job) (hrun : job.run.value < a.scheduler.nextRunId)
    (step : Step) :
    (a.after step).Aboard job ∨ step = .abandon job ∨
      (a.scheduler.intact = true → a.scheduler.current? job = none) ∨
      a.completedBy? step = some job ∨ (a.after step).scheduler.intact = false := by
  obtain ⟨stage, hstage, hpending⟩ := h
  rcases stage?_after hrun step with hsame | ⟨old, hold, hadvance⟩
  · exact .inl ⟨stage, hsame.trans hstage, hpending⟩
  · rw [hstage] at hold
    cases hold
    generalize hafter : (a.after step).stage? job = found at hadvance
    cases hadvance with
    | announced | admitted | skipped | begun | finished => exact .inl ⟨_, hafter, rfl⟩
    | dropped hstale => exact .inr (.inr (.inl hstale))
    | @completed now outcome =>
      cases hintact : (a.scheduler.complete job outcome now).scheduler.intact with
      | true =>
        exact .inr (.inr (.inr (.inl
          (completedBy?_eq_some_iff.2 ⟨now, outcome, rfl, hstage, hintact⟩))))
      | false =>
        rw [Agent.after, complete_of_measured hstage]
        exact .inr (.inr (.inr (.inr hintact)))
    | told | gone => cases hpending
    | abandoned => exact .inr (.inl rfl)

theorem Effect.aboard_of_started (h : Effect a step seen b) (ha : a.Sound)
    (hjob : .started job ∈ seen) : b.Aboard job := by
  have hin := h.inOrder ha
  cases h with
  | dispatched hintact hdue =>
    obtain ⟨other, hother, heq⟩ := List.mem_map.1 hjob
    cases heq
    exact ⟨.announcing, (stage?_eq_some_iff hin).2
      (List.mem_append_right _ (List.mem_map_of_mem hother)), rfl⟩
  | moved other told h => simp at hjob
  | endedLast hintact hstage hcurrent => simp at hjob
  | ended hintact hstage hcurrent hnext => simp at hjob
  | lost | signalled | forgotten | enqueued | removed => cases hjob

/-- A run in flight is at one of its stages, unless it broke off or does not count any more. -/
theorem Agrees.aboard (ha : a.Sound) (h : a.Agrees runs) {earlier : List Step}
    (hruns : ∀ job ∈ runs, a.Aboard job ∨ .abandon job ∈ earlier ∨
      (a.scheduler.intact = true → a.scheduler.current? job = none)) (steps : List Step) :
    ∀ job ∈ a.inFlight runs steps, (a.afterAll steps).Aboard job ∨ .abandon job ∈ earlier ++ steps ∨
      ((a.afterAll steps).scheduler.intact = true →
        (a.afterAll steps).scheduler.current? job = none) := by
  induction steps generalizing a runs earlier with
  | nil =>
    rw [List.append_nil]
    exact hruns
  | cons step rest ih =>
    have heffect := effect_after a step
    rw [List.append_cons]
    refine ih (heffect.sound ha) (h.after ha step) fun job hjob => ?_
    obtain ⟨hjob, hcompleted⟩ := mem_inFlightAfter.1 hjob
    rcases hjob with hjob | hnew
    · have hstale (hbefore : a.scheduler.intact = true → a.scheduler.current? job = none) :
          (a.after step).scheduler.intact = true →
            (a.after step).scheduler.current? job = none := by
        intro hintact
        exact heffect.current?_eq_none ha (h.bounds job hjob).1 (h.bounds job hjob).2
          (hbefore (heffect.intact hintact))
      rcases hruns job hjob with haboard | habandon | hbefore
      · rcases haboard.after (h.bounds job hjob).2 step with haboard | rfl | hbefore | hdone | hlost
        · exact .inl haboard
        · exact .inr (.inl (List.mem_append_right _ List.mem_cons_self))
        · exact .inr (.inr (hstale hbefore))
        · exact absurd hdone hcompleted
        · refine .inr (.inr fun hintact => ?_)
          rw [hlost] at hintact
          cases hintact
      · exact .inr (.inl (List.mem_append_left _ habandon))
      · exact .inr (.inr (hstale hbefore))
    · exact .inl (heffect.aboard_of_started ha hnew)

/-! ## The theorem -/

/-- The numbers of the runs that start are larger than all before them. -/
theorem startedJobs_history_ascending (a : Agent) (steps : List Step) :
    (∀ job ∈ startedJobs (a.history steps), a.scheduler.nextRunId ≤ job.run.value) ∧
      (startedJobs (a.history steps)).Pairwise (·.run.value < ·.run.value) := by
  induction steps generalizing a with
  | nil => exact ⟨fun job hjob => (by cases hjob), .nil⟩
  | cons step rest ih =>
    have heffect := effect_after a step
    obtain ⟨hlater, hascending⟩ := ih (a.after step)
    rw [history, startedJobs_append]
    constructor
    · intro job hjob
      rcases List.mem_append.1 hjob with hjob | hjob
      · exact (heffect.of_started (mem_startedJobs.1 hjob)).2.1
      · exact Nat.le_trans heffect.nextRunId_le (hlater job hjob)
    · refine List.pairwise_append.2 ⟨heffect.startedJobs_ascending, hascending, ?_⟩
      intro job hjob later hmem
      exact Nat.lt_of_lt_of_le (heffect.of_started (mem_startedJobs.1 hjob)).2.2
        (hlater later hmem)

theorem permitsTaken_afterAll_le (ha : a.Sound) (h : a.permitsTaken ≤ a.permits)
    (steps : List Step) : (a.afterAll steps).permitsTaken ≤ a.permits := by
  induction steps generalizing a with
  | nil => exact h
  | cons step rest ih =>
    have hafter := permitsTaken_after_le ha.inOrder h step
    have hrest := ih ((effect_after a step).sound ha) hafter
    rw [permits_after] at hrest
    exact hrest

/-- In any order of steps the records of the tasks agree with the runs in flight, the numbers of
runs are distinct, and no more runs hold a permit than may.  A run in flight that counts is at a
stage before its completion, unless it broke off or the tasks are lost. -/
theorem records_agree_with_runs (registry : MethodRegistry) (resultsPerTask maxConcurrent : Nat)
    (steps : List Step) :
    let start := empty registry (.empty resultsPerTask) maxConcurrent
    let a := start.afterAll steps
    let runs := start.inFlight [] steps
    (∀ task ∈ a.scheduler.tasks,
      (task.status = .running ↔ task.cancel.isSome = true) ∧
      (∀ run, task.cancel = some run → run = task.latest) ∧
      (task.status = .running ↔ (runs.filter task.isLatest).length = 1) ∧
      (task.status ≠ .running → runs.filter task.isLatest = []) ∧
      (task.status = .error ↔ task.lastError.isSome = true) ∧
      (task.status = .error → task.nextRun = none ∧ ∀ later, Step.remove task.id ∉ later →
        (a.afterAll later).scheduler.find? task.id = some task)) ∧
    ((startedJobs (start.history steps)).map (·.run)).Nodup ∧
    a.permitsTaken ≤ max 1 maxConcurrent ∧
    (∀ f ∈ a.flights, f.stage.isPending = true → f.job ∈ runs) ∧
    ∀ job ∈ runs, a.scheduler.intact = true → (a.scheduler.current? job).isSome = true →
      Step.abandon job ∉ steps → ∃ f ∈ a.flights, f.job = job ∧ f.stage.isPending = true := by
  intro start a runs
  have hstart : start.Sound := empty_sound registry resultsPerTask maxConcurrent
  have hreachable : a.Reachable := (Reachable.empty _ _ _).afterAll steps
  have ha : a.Sound := hreachable.sound
  have hnone : start.Agrees [] :=
    ⟨.nil, fun _ h => (by cases h), fun _ h => (by cases h), fun _ h => (by cases h),
      fun _ h => (by cases h)⟩
  have hagrees : a.Agrees runs := hnone.afterAll hstart steps
  refine ⟨fun task htask => ?_, ?_, permitsTaken_afterAll_le hstart (Nat.zero_le _) steps,
    hagrees.pending, fun job hjob hintact hcurrent habandon => ?_⟩
  · have hcoherent := hreachable.coherent task htask
    have hlength := hagrees.length_filter_isLatest ha htask
    refine ⟨hcoherent.running_iff, fun run => hcoherent.latest_of_cancel, ?_, fun hidle => ?_,
      hcoherent.error_iff, fun herror => ⟨hcoherent.nextRun_eq_none herror, fun later hlater => ?_⟩⟩
    · by_cases hrunning : task.status = .running
      · rw [hlength, if_pos hrunning]
        exact ⟨fun _ => rfl, fun _ => hrunning⟩
      · rw [hlength, if_neg hrunning]
        exact ⟨fun h => absurd h hrunning, fun h => by cases h⟩
    · rw [if_neg hidle] at hlength
      exact List.length_eq_zero_iff.1 hlength
    · have hfind : a.scheduler.find? task.id = some task :=
        (Scheduler.find?_eq_some_iff ha.ascending).2 ⟨htask, rfl⟩
      exact find?_of_error_afterAll ha hfind herror hlater
  · have hascending := (startedJobs_history_ascending start steps).2
    refine List.pairwise_map.2 (hascending.imp fun hlt heq => ?_)
    rw [heq] at hlt
    exact Nat.lt_irrefl _ hlt
  · have hempty : ∀ job ∈ ([] : List Job), start.Aboard job ∨ Step.abandon job ∈ [] ∨
        (start.scheduler.intact = true → start.scheduler.current? job = none) :=
      fun _ h => by cases h
    rcases hnone.aboard hstart hempty steps job hjob with haboard | hmem | hstale
    · obtain ⟨stage, hstage, hpending⟩ := haboard
      exact ⟨_, (stage?_eq_some_iff ha.inOrder).1 hstage, rfl, hpending⟩
    · exact absurd hmem habandon
    · rw [hstale hintact] at hcurrent
      cases hcurrent

/-- Two dispatches, the second while the first run is in flight. -/
example : (empty .builtIn (.empty 100) 2).inFlight []
    [.enqueue minutely .epoch, .dispatch .epoch, .announce minutelyJob, .dispatch .epoch] =
      [minutelyJob] := by
  rfl

end Agent

end ProbeAgent
