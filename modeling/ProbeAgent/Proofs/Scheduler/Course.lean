import ProbeAgent.Scheduler.Agent
import ProbeAgent.Proofs.Result.Store
import ProbeAgent.Proofs.Scheduler.Operations

/-!
# The course of an agent

Whatever happens to an agent is a `Step`, and steps follow each other in any order.  A step that
needs the time brings it along, so the clock may have gone anywhere since the step before.

`Agent.Effect` lists all that one step can do, and `effect_after` shows that the list is complete.
What is proved about steps is proved from this list, without a look at the operations.
-/

namespace ProbeAgent

inductive Step where
  | enqueue (spec : TaskSpec) (now : Instant)
  | remove (id : TaskId)
  | stop (id : TaskId)
  | shutDown
  | dispatch (now : Instant)
  -- The dispatch tells that a run has started.
  | announce (job : Job)
  | grantPermit (job : Job)
  | begin (job : Job)
  -- A session tells its run to stop.
  | cancel (run : RunId)
  | finish (job : Job) (outcome : Scheduler.Outcome)
  | complete (job : Job) (now : Instant)
  | report (job : Job)
  -- A run breaks off that cannot tell the time.
  | abandon (job : Job)
  -- The report of a task is taken out of the store.
  | forget (id : TaskId)

/-- What can be seen of a step from outside. -/
inductive Happening where
  | started (job : Job)
  | recorded (event : ReportEvent)
  | told (event : SchedulerEvent)

namespace Happening

/-- When a run of the task started, if that is what happened. -/
def startOf? (id : TaskId) : Happening → Option Instant
  | started job => if job.taskId = id then some job.startedAt else none
  | recorded _ | told _ => none

/-- The time of the task's report, if that is what happened. -/
def reportOf? (id : TaskId) : Happening → Option Instant
  | recorded event => if event.taskId = id then some event.report.reportTime else none
  | started _ | told _ => none

end Happening

/-- When the runs of a task started. -/
def startTimes (id : TaskId) (seen : List Happening) : List Instant :=
  seen.filterMap (·.startOf? id)

/-- The times of a task's reports. -/
def reportTimes (id : TaskId) (seen : List Happening) : List Instant :=
  seen.filterMap (·.reportOf? id)

theorem startTimes_append (id : TaskId) (seen later : List Happening) :
    startTimes id (seen ++ later) = startTimes id seen ++ startTimes id later :=
  List.filterMap_append

theorem reportTimes_append (id : TaskId) (seen later : List Happening) :
    reportTimes id (seen ++ later) = reportTimes id seen ++ reportTimes id later :=
  List.filterMap_append

theorem startTimes_started (id : TaskId) (jobs : List Job) :
    startTimes id (jobs.map .started) = (jobs.filter (·.taskId = id)).map (·.startedAt) := by
  induction jobs with
  | nil => rfl
  | cons job rest ih =>
    rw [startTimes] at ih ⊢
    rw [List.map_cons, List.filterMap_cons, ih, Happening.startOf?]
    by_cases hid : job.taskId = id
    · rw [if_pos hid, List.filter_cons_of_pos (by simpa using hid), List.map_cons]
    · rw [if_neg hid, List.filter_cons_of_neg (by simpa using hid)]

theorem startTimes_told (id : TaskId) (events : List SchedulerEvent) :
    startTimes id (events.map .told) = [] := by
  simp [startTimes, Happening.startOf?]

theorem startTimes_recorded (id : TaskId) (events : List ReportEvent) :
    startTimes id (events.map .recorded) = [] := by
  simp [startTimes, Happening.startOf?]

theorem reportTimes_started (id : TaskId) (jobs : List Job) :
    reportTimes id (jobs.map .started) = [] := by
  simp [reportTimes, Happening.reportOf?]

theorem reportTimes_told (id : TaskId) (events : List SchedulerEvent) :
    reportTimes id (events.map .told) = [] := by
  simp [reportTimes, Happening.reportOf?]

/-- Whether a run in this stage has not completed. -/
def Stage.isPending : Stage → Bool
  | reporting _ => false
  | announcing | queued | admitted | measuring | measured _ => true

/-- The next run of a waiting task is one that its timing offers. -/
def ScheduledTask.Timely (task : ScheduledTask) : Prop :=
  task.isWaiting → ∀ next, task.nextRun = some next →
    ∃ reference, task.spec.timing.nextRunFrom reference = .ok (some next)

namespace Agent

def withScheduler (a : Agent) (s : Scheduler) : Agent := { a with scheduler := s }

@[simp] theorem withScheduler_scheduler (a : Agent) (s : Scheduler) :
    (a.withScheduler s).scheduler = s := rfl

def after (a : Agent) : Step → Agent
  | .enqueue spec now =>
    match a.scheduler.enqueue spec now with
    | .error _ => a.loseTasks
    | .ok (.error _) => a
    | .ok (.ok s) => a.withScheduler s
  | .remove id =>
    match a.scheduler.remove id with
    | .ok (.ok (_, s)) => a.withScheduler s
    | _ => a
  | .stop id =>
    match a.scheduler.stop id with
    | .ok (.ok (_, s)) => a.withScheduler s
    | _ => a
  | .shutDown => a.shutDown
  | .dispatch now => (a.tryDispatch now).2
  | .announce job => (a.announce job).2
  | .grantPermit job => a.grantPermit job
  | .begin job => (a.begin job).2
  | .cancel run => a.withScheduler (a.scheduler.cancelRun (some run))
  | .finish job outcome => a.finish job outcome
  | .complete job now => (a.complete job now).2
  | .report job => (a.report job).2
  | .abandon job => a.land job
  | .forget id =>
    a.withScheduler { a.scheduler with results := (a.scheduler.results.remove id).1 }

def shows (a : Agent) : Step → List Happening
  | .dispatch now =>
    match (a.tryDispatch now).1 with
    | .ok jobs => jobs.map .started
    | .error _ => []
  | .announce job => (a.announce job).1.toList.map .told
  | .complete job now => (a.complete job now).1.toList.map .recorded
  | .report job => (a.report job).1.toList.map .told
  | _ => []

def afterAll (a : Agent) (steps : List Step) : Agent := steps.foldl after a

/-- What can be seen of some steps, in order. -/
def history (a : Agent) : List Step → List Happening
  | [] => []
  | step :: rest => a.shows step ++ (a.after step).history rest

variable {a : Agent}

/-! ## Flights -/

/-- The runs in flight are in the order of their numbers. -/
def InOrder (a : Agent) : Prop :=
  a.flights.Pairwise (·.job.run.value < ·.job.run.value)

theorem InOrder.eq_of_run_eq (h : a.InOrder) {f g : Flight} (hf : f ∈ a.flights)
    (hg : g ∈ a.flights) (hrun : f.job.run = g.job.run) : f = g := by
  rw [InOrder] at h
  -- If one of the two is the first, the number of the other would be larger.
  generalize a.flights = flights at h hf hg
  induction flights with
  | nil => cases hf
  | cons first rest ih =>
    have ⟨hfirst, hrest⟩ := List.pairwise_cons.1 h
    rcases List.mem_cons.1 hf with rfl | hf'
    · rcases List.mem_cons.1 hg with rfl | hg'
      · rfl
      · exact absurd (congrArg RunId.value hrun) (Nat.ne_of_lt (hfirst g hg'))
    · rcases List.mem_cons.1 hg with rfl | hg'
      · exact absurd (congrArg RunId.value hrun.symm) (Nat.ne_of_lt (hfirst f hf'))
      · exact ih hrest hf' hg'

theorem stage?_eq_some_iff (h : a.InOrder) {job : Job} {stage : Stage} :
    a.stage? job = some stage ↔ ⟨job, stage⟩ ∈ a.flights := by
  rw [stage?, Option.map_eq_some_iff]
  constructor
  · rintro ⟨f, hfind, rfl⟩
    have hjob : f.job = job := by simpa using List.find?_some hfind
    rw [← hjob]
    exact List.mem_of_find?_eq_some hfind
  · intro hmem
    cases hfind : a.flights.find? (·.job = job) with
    | none => simpa using List.find?_eq_none.1 hfind _ hmem
    | some f =>
      have hjob : f.job = job := by simpa using List.find?_some hfind
      refine ⟨f, rfl, ?_⟩
      rw [h.eq_of_run_eq (List.mem_of_find?_eq_some hfind) hmem (congrArg Job.run hjob)]

theorem mem_setStage {job : Job} {stage : Stage} {g : Flight} :
    g ∈ (a.setStage job stage).flights ↔
      (g ∈ a.flights ∧ g.job ≠ job) ∨ ∃ f ∈ a.flights, f.job = job ∧ g = ⟨job, stage⟩ := by
  rw [setStage, List.mem_map]
  constructor
  · rintro ⟨f, hf, rfl⟩
    split
    · rename_i hjob
      exact .inr ⟨f, hf, hjob, by rw [hjob]⟩
    · rename_i hjob
      exact .inl ⟨hf, hjob⟩
  · rintro (⟨hg, hjob⟩ | ⟨f, hf, hjob, rfl⟩)
    · exact ⟨g, hg, if_neg hjob⟩
    · exact ⟨f, hf, by rw [if_pos hjob, hjob]⟩

theorem map_job_setStage (a : Agent) (job : Job) (stage : Stage) :
    (a.setStage job stage).flights.map (·.job) = a.flights.map (·.job) := by
  rw [setStage, List.map_map]
  refine List.map_congr_left fun f _ => ?_
  by_cases hjob : f.job = job
  · simp [hjob]
  · simp [hjob]

theorem jobs_setStage_sublist (a : Agent) (job : Job) (stage : Stage) :
    ((a.setStage job stage).flights.map (·.job)).Sublist (a.flights.map (·.job)) :=
  map_job_setStage a job stage ▸ List.Sublist.refl _

-- Being in order is a matter of the jobs alone.
theorem InOrder.of_jobs (h : a.InOrder) {b : Agent}
    (hjobs : (b.flights.map (·.job)).Sublist (a.flights.map (·.job))) : b.InOrder := by
  have key : (a.flights.map (·.job)).Pairwise (·.run.value < ·.run.value) := List.pairwise_map.2 h
  have := List.pairwise_map.1 (key.sublist hjobs)
  exact this

/-- What the steps of a run do to it, unless it completes and counts: it stays, goes to another
stage, or ends.  It does not become pending, and it has no more to tell than before. -/
inductive Moves (a : Agent) (job : Job) : Agent → Prop where
  | stay : Moves a job a
  | change {old new} (hold : a.stage? job = some old)
      (hpending : new.isPending = true → old.isPending = true)
      (hevents : ∀ events, new = .reporting events →
        events = [] ∨ ∃ event, old = .reporting (event :: events)) :
      Moves a job (a.setStage job new)
  | land : Moves a job (a.land job)

theorem announce_moves (a : Agent) (job : Job) : Moves a job (a.announce job).2 := by
  rw [announce]
  split
  · rename_i hstage
    exact .change hstage (fun _ => rfl) fun _ h => by cases h
  · exact .stay

theorem grantPermit_moves (a : Agent) (job : Job) : Moves a job (a.grantPermit job) := by
  rw [grantPermit]
  split
  · rename_i hstage
    split
    · exact .change hstage (fun _ => rfl) fun _ h => by cases h
    · exact .stay
  · exact .stay

theorem begin_moves (a : Agent) (job : Job) : Moves a job (a.begin job).2 := by
  rw [begin]
  split
  · rename_i hstage
    split
    · exact .land
    · exact .land
    · split
      · exact .change hstage (fun _ => rfl) fun _ h => by cases h
      · exact .change hstage (fun _ => rfl) fun _ h => by cases h
  · exact .stay

theorem finish_moves (a : Agent) (job : Job) (outcome : Scheduler.Outcome) :
    Moves a job (a.finish job outcome) := by
  rw [finish]
  split
  · rename_i hstage
    exact .change hstage (fun _ => rfl) fun _ h => by cases h
  · exact .stay

theorem report_moves (a : Agent) (job : Job) : Moves a job (a.report job).2 := by
  rw [report]
  split
  · exact .land
  · rename_i hstage
    exact .change hstage (fun h => by cases h) fun _ h => .inr ⟨_, by cases h; rfl⟩
  · exact .stay

theorem Moves.scheduler_eq {job : Job} {b : Agent} (h : Moves a job b) :
    b.scheduler = a.scheduler := by
  cases h <;> rfl

theorem Moves.jobs {job : Job} {b : Agent} (h : Moves a job b) :
    (b.flights.map (·.job)).Sublist (a.flights.map (·.job)) := by
  cases h with
  | stay => exact List.Sublist.refl _
  | change hold hpending hevents => exact jobs_setStage_sublist _ _ _
  | land => exact List.filter_sublist.map _

theorem Moves.mem_flights (hin : a.InOrder) {job : Job} {b : Agent} (h : Moves a job b)
    {g : Flight} (hg : g ∈ b.flights) :
    ∃ f ∈ a.flights, g.job = f.job ∧ (g.stage.isPending = true → f.stage.isPending = true) := by
  cases h with
  | stay => exact ⟨g, hg, rfl, id⟩
  | @change old new hold hpending hevents =>
    rcases mem_setStage.1 hg with ⟨hg, -⟩ | ⟨f, hf, hjob, rfl⟩
    · exact ⟨g, hg, rfl, id⟩
    · exact ⟨⟨job, old⟩, (stage?_eq_some_iff hin).1 hold, rfl, hpending⟩
  | land => exact ⟨g, (List.mem_filter.1 hg).1, rfl, id⟩

/-! ## What a step does -/

theorem complete_of_measured {job : Job} {outcome : Scheduler.Outcome}
    (h : a.stage? job = some (.measured outcome)) (now : Instant) :
    a.complete job now =
      ((a.scheduler.complete job outcome now).recorded,
        (a.withScheduler (a.scheduler.complete job outcome now).scheduler).setStage job
          (.reporting (a.scheduler.complete job outcome now).events)) := by
  rw [complete, h]
  rfl

theorem complete_of_not_measured {job : Job}
    (h : ∀ outcome, a.stage? job ≠ some (.measured outcome)) (now : Instant) :
    a.complete job now = (none, a) := by
  rw [complete]
  split
  · rename_i outcome hstage
    exact absurd hstage (h outcome)
  · rfl

theorem complete_cases (a : Agent) (job : Job) (now : Instant) :
    a.complete job now = (none, a) ∨
    (∃ outcome, a.stage? job = some (.measured outcome) ∧
      a.complete job now = (none, a.setStage job (.reporting []))) ∨
    ∃ outcome task, a.scheduler.intact = true ∧ a.stage? job = some (.measured outcome) ∧
      a.scheduler.current? job = some task ∧
      (a.complete job now =
          ((a.scheduler.record job (Scheduler.resultOf outcome)).2,
            (a.withScheduler { (a.scheduler.record job (Scheduler.resultOf outcome)).1 with
              intact := false }).setStage job (.reporting [])) ∨
        ∃ next, Scheduler.nextAfter task (Scheduler.conclusion outcome).1 now = .ok next ∧
          a.complete job now =
            ((a.scheduler.record job (Scheduler.resultOf outcome)).2,
              (a.withScheduler { (a.scheduler.record job (Scheduler.resultOf outcome)).1 with
                tasks := Scheduler.replaceTask (task.ended (Scheduler.conclusion outcome).1
                  (Scheduler.conclusion outcome).2 next) a.scheduler.tasks }).setStage job
                (.reporting (Scheduler.endEvents job.taskId (Scheduler.conclusion outcome).1
                  (Scheduler.conclusion outcome).2)))) := by
  by_cases hmeasured : ∃ outcome, a.stage? job = some (.measured outcome)
  · obtain ⟨outcome, hstage⟩ := hmeasured
    rw [complete_of_measured hstage]
    by_cases hstale : a.scheduler.intact = true → a.scheduler.current? job = none
    · -- The run does not count: it goes on to its reports, of which there are none.
      rw [Scheduler.complete_of_stale hstale]
      exact .inr (.inl ⟨outcome, hstage, rfl⟩)
    · obtain ⟨hintact, hsome⟩ := Classical.not_imp.1 hstale
      obtain ⟨task, hcurrent⟩ := Option.ne_none_iff_exists'.1 hsome
      refine .inr (.inr ⟨outcome, task, hintact, hstage, hcurrent, ?_⟩)
      rcases Scheduler.complete_of_current hintact hcurrent outcome now with
        hcomplete | ⟨next, hnext, hcomplete⟩
      · rw [hcomplete]
        exact .inl rfl
      · rw [hcomplete]
        exact .inr ⟨next, hnext, rfl⟩
  · exact .inl (complete_of_not_measured (fun outcome h => hmeasured ⟨outcome, h⟩) now)

/-- All that a step can do. -/
inductive Effect (a : Agent) : Step → List Happening → Agent → Prop where
  -- An operation on the tasks broke off.
  | lost {step} : Effect a step [] a.loseTasks
  -- At most some runs were told to stop.
  | signalled {step} (cancelled : List RunId) :
      Effect a step [] (a.withScheduler { a.scheduler with cancelled := cancelled })
  | forgotten {id} :
      Effect a (.forget id) []
        (a.withScheduler { a.scheduler with results := (a.scheduler.results.remove id).1 })
  | enqueued {spec now definition next} (habsent : a.scheduler.find? spec.id = none)
      (hnext : spec.timing.nextRunFrom now = .ok next) :
      Effect a (.enqueue spec now) []
        (a.withScheduler { a.scheduler with
          tasks := Scheduler.insertTask (.fresh spec definition next) a.scheduler.tasks })
  | removed {id cancelled} :
      Effect a (.remove id) []
        (a.withScheduler { a.scheduler with
          cancelled := cancelled
          tasks := a.scheduler.tasks.filter (·.id ≠ id) })
  | dispatched {now tasks jobs next} (hintact : a.scheduler.intact = true)
      (hdue : Scheduler.StartsDue now a.scheduler.nextRunId a.scheduler.tasks tasks jobs next) :
      Effect a (.dispatch now) (jobs.map .started)
        { a with
          scheduler := { a.scheduler with tasks := tasks, nextRunId := next }
          flights := a.flights ++ jobs.map (Flight.mk · .announcing) }
  | moved {step b} (job : Job) (told : List SchedulerEvent) (h : Moves a job b) :
      Effect a step (told.map .told) b
  -- A run ended that counts, and the time after it has no date.
  | endedLast {job now outcome task} (hintact : a.scheduler.intact = true)
      (hstage : a.stage? job = some (.measured outcome))
      (hcurrent : a.scheduler.current? job = some task) :
      Effect a (.complete job now)
        ((a.scheduler.record job (Scheduler.resultOf outcome)).2.toList.map .recorded)
        ((a.withScheduler { (a.scheduler.record job (Scheduler.resultOf outcome)).1 with
          intact := false }).setStage job (.reporting []))
  -- A run ended that counts.
  | ended {job now outcome task next} (hintact : a.scheduler.intact = true)
      (hstage : a.stage? job = some (.measured outcome))
      (hcurrent : a.scheduler.current? job = some task)
      (hnext : Scheduler.nextAfter task (Scheduler.conclusion outcome).1 now = .ok next) :
      Effect a (.complete job now)
        ((a.scheduler.record job (Scheduler.resultOf outcome)).2.toList.map .recorded)
        ((a.withScheduler { (a.scheduler.record job (Scheduler.resultOf outcome)).1 with
          tasks := Scheduler.replaceTask (task.ended (Scheduler.conclusion outcome).1
            (Scheduler.conclusion outcome).2 next) a.scheduler.tasks }).setStage job
          (.reporting (Scheduler.endEvents job.taskId (Scheduler.conclusion outcome).1
            (Scheduler.conclusion outcome).2)))

theorem effect_refused (a : Agent) (step : Step) : Effect a step [] a :=
  .signalled a.scheduler.cancelled

theorem effect_enqueue (a : Agent) (spec : TaskSpec) (now : Instant) :
    Effect a (.enqueue spec now) [] (a.after (.enqueue spec now)) := by
  cases h : a.scheduler.enqueue spec now with
  | error e =>
    rw [after, h]
    exact .lost
  | ok refusal =>
    cases refusal with
    | error e =>
      rw [after, h]
      exact effect_refused a _
    | ok s =>
      rw [after, h]
      obtain ⟨-, habsent, definition, next, -, hnext, rfl⟩ := Scheduler.enqueue_eq_ok h
      exact .enqueued habsent hnext

theorem effect_remove (a : Agent) (id : TaskId) :
    Effect a (.remove id) [] (a.after (.remove id)) := by
  rw [after]
  split
  · rename_i spec s h
    obtain ⟨-, task, -, -, rfl⟩ := Scheduler.remove_eq_ok h
    exact .removed
  · exact effect_refused a _

theorem effect_stop (a : Agent) (id : TaskId) : Effect a (.stop id) [] (a.after (.stop id)) := by
  rw [after]
  split
  · rename_i stopped s h
    obtain ⟨-, task, -, -, rfl⟩ := Scheduler.stop_eq_ok h
    exact .signalled _
  · exact effect_refused a _

theorem effect_shutDown (a : Agent) : Effect a .shutDown [] (a.after .shutDown) := by
  rw [after, shutDown]
  split
  · exact effect_refused a _
  · rename_i s h
    obtain ⟨-, rfl⟩ := Scheduler.stopAll_eq_ok h
    exact .signalled _

theorem effect_dispatch (a : Agent) (now : Instant) :
    Effect a (.dispatch now) (a.shows (.dispatch now)) (a.after (.dispatch now)) := by
  rw [after, shows, tryDispatch, dispatch]
  cases h : a.scheduler.dispatch now with
  | error e =>
    -- A next run without a date breaks the dispatch off, also for the tasks before it.
    exact .lost
  | ok result =>
    obtain ⟨jobs, s⟩ := result
    obtain ⟨hintact, tasks, next, hdue, rfl⟩ := Scheduler.dispatch_eq_ok h
    exact .dispatched hintact hdue

theorem effect_complete (a : Agent) (job : Job) (now : Instant) :
    Effect a (.complete job now) (a.shows (.complete job now)) (a.after (.complete job now)) := by
  rw [after, shows]
  rcases complete_cases a job now with h | ⟨outcome, hstage, h⟩ |
    ⟨outcome, task, hintact, hstage, hcurrent, h | ⟨next, hnext, h⟩⟩
  · rw [h]
    exact effect_refused a _
  · rw [h]
    exact .moved job [] (.change hstage (fun h => by cases h) fun _ h => .inl (by cases h; rfl))
  · rw [h]
    exact .endedLast hintact hstage hcurrent
  · rw [h]
    exact .ended hintact hstage hcurrent hnext

theorem effect_after (a : Agent) (step : Step) : Effect a step (a.shows step) (a.after step) := by
  cases step with
  | enqueue spec now => exact effect_enqueue a spec now
  | remove id => exact effect_remove a id
  | stop id => exact effect_stop a id
  | shutDown => exact effect_shutDown a
  | dispatch now => exact effect_dispatch a now
  | announce job => exact .moved job _ (announce_moves a job)
  | grantPermit job => exact .moved job [] (grantPermit_moves a job)
  | begin job => exact .moved job [] (begin_moves a job)
  | cancel run => exact .signalled _
  | finish job outcome => exact .moved job [] (finish_moves a job outcome)
  | complete job now => exact effect_complete a job now
  | report job => exact .moved job _ (report_moves a job)
  | abandon job => exact .moved job [] .land
  | forget id => exact .forgotten

end Agent

end ProbeAgent
