import ProbeAgent.Proofs.Scheduler.Flights
import ProbeAgent.Proofs.Scheduler.Soundness

/-!
# What the end of a run touches

The completion of a run touches the task and the report of its own identity and nothing else, and
only while it is the latest run of that task.  A run that is pending when its task is removed is an
orphan from then on: whatever comes next, also a new task of the same identity with new runs, no
step of the orphan changes anything or tells anything.
-/

namespace ProbeAgent

/-- Whether this is a step that a dispatched run takes by itself.  To announce a run is part of its
dispatch. -/
def Step.IsOf (job : Job) : Step → Prop
  | grantPermit j | begin j | finish j _ | complete j _ | report j | abandon j => j = job
  | enqueue .. | remove _ | stop _ | shutDown | dispatch _ | announce _ | cancel _ | forget _ =>
    False

namespace Agent

variable {a b : Agent} {step : Step} {seen : List Happening} {job : Job}

/-- Nothing differs but the task and the report of one identity, the stage of one run, and whether
the tasks are lost. -/
structure SameBut (job : Job) (a b : Agent) : Prop where
  tasks : ∀ id ≠ job.taskId, b.scheduler.find? id = a.scheduler.find? id
  reports : ∀ id ≠ job.taskId, b.scheduler.results.report? id = a.scheduler.results.report? id
  registry : b.scheduler.registry = a.scheduler.registry
  identities : b.scheduler.tasks.map (·.id) = a.scheduler.tasks.map (·.id)
  nextRunId : b.scheduler.nextRunId = a.scheduler.nextRunId
  cancelled : b.scheduler.cancelled = a.scheduler.cancelled
  flights : ∀ f, f.job ≠ job → (f ∈ b.flights ↔ f ∈ a.flights)

/-! ## Completion -/

theorem SameBut.setStage (h : SameBut job a b) (stage : Stage) :
    SameBut job a (b.setStage job stage) where
  tasks := h.tasks
  reports := h.reports
  registry := h.registry
  identities := h.identities
  nextRunId := h.nextRunId
  cancelled := h.cancelled
  flights f hf := by
    refine mem_setStage.trans (Iff.trans ?_ (h.flights f hf))
    constructor
    · rintro (⟨hmem, -⟩ | ⟨g, -, -, rfl⟩)
      · exact hmem
      · exact absurd rfl hf
    · exact fun hmem => .inl ⟨hmem, hf⟩

theorem SameBut.refl (a : Agent) (job : Job) : SameBut job a a :=
  ⟨fun _ _ => rfl, fun _ _ => rfl, rfl, rfl, rfl, rfl, fun _ _ => Iff.rfl⟩

theorem report?_record_of_ne {s : Scheduler} (h : s.results.Consistent) (job : Job)
    (result : Option RunResult) {id : TaskId} (hid : id ≠ job.taskId) :
    (s.record job result).1.results.report? id = s.results.report? id := by
  cases result with
  | none => rfl
  | some result => exact ReportStore.report?_record_of_ne h hid _ _

theorem complete_sameBut (ha : a.Sound) (job : Job) (now : Instant) :
    SameBut job a (a.after (.complete job now)) := by
  have hreports (outcome : Scheduler.Outcome) (id : TaskId) (hid : id ≠ job.taskId) :=
    report?_record_of_ne ha.results job (Scheduler.resultOf outcome) hid
  rw [after]
  rcases complete_cases a job now with h | ⟨outcome, -, h⟩ |
    ⟨outcome, task, -, -, hcurrent, h | ⟨next, -, h⟩⟩
  · rw [h]
    exact SameBut.refl a job
  · rw [h]
    exact (SameBut.refl a job).setStage _
  · rw [h, Scheduler.record_eq]
    refine SameBut.setStage ?_ _
    exact ⟨fun _ _ => rfl, hreports outcome, rfl, rfl, rfl, rfl, fun _ _ => Iff.rfl⟩
  · rw [h, Scheduler.record_eq]
    refine SameBut.setStage ?_ _
    refine ⟨fun id hne => ?_, hreports outcome, rfl, Scheduler.map_id_replaceTask _, rfl, rfl,
      fun _ _ => Iff.rfl⟩
    -- The task that is replaced is the one of the run.
    have hid := Scheduler.id_of_find? (Scheduler.current?_eq_some_iff.1 hcurrent).1
    refine (Scheduler.find?_replaceTask _ id).trans (if_neg ?_)
    rw [ScheduledTask.ended_id, hid]
    exact hne.symm

theorem complete_stale (h : a.scheduler.intact = true → a.scheduler.current? job = none)
    (now : Instant) :
    (a.after (.complete job now)).scheduler = a.scheduler ∧ a.shows (.complete job now) = [] := by
  rw [after, shows]
  rcases complete_cases a job now with hsame | ⟨outcome, -, hmoved⟩ |
    ⟨outcome, task, hintact, -, hcurrent, -⟩
  · rw [hsame]
    exact ⟨rfl, rfl⟩
  · rw [hmoved]
    exact ⟨rfl, rfl⟩
  · rw [h hintact] at hcurrent
    cases hcurrent

theorem complete_current (hintact : a.scheduler.intact = true) {task : ScheduledTask}
    (hcurrent : a.scheduler.current? job = some task) {outcome : Scheduler.Outcome}
    (hstage : a.stage? job = some (.measured outcome)) (now : Instant) :
    (a.after (.complete job now)).scheduler.results =
        (a.scheduler.record job (Scheduler.resultOf outcome)).1.results ∧
      a.shows (.complete job now) =
        (a.scheduler.record job (Scheduler.resultOf outcome)).2.toList.map .recorded := by
  rw [after, shows, complete_of_measured hstage]
  rcases Scheduler.complete_of_current hintact hcurrent outcome now with
    hcomplete | ⟨next, -, hcomplete⟩
  · rw [hcomplete]
    exact ⟨rfl, rfl⟩
  · rw [hcomplete]
    exact ⟨rfl, rfl⟩

/-! ## Orphans -/

/-- A run that is not the latest of its task does not become so again. -/
theorem Effect.current?_eq_none (h : Effect a step seen b) (ha : a.Sound)
    (hpos : 0 < job.run.value) (hrun : job.run.value < a.scheduler.nextRunId)
    (hstale : a.scheduler.current? job = none) : b.scheduler.current? job = none := by
  cases hcurrent : b.scheduler.current? job with
  | none => rfl
  | some t =>
    obtain ⟨hfind, hlatest⟩ := Scheduler.current?_eq_some_iff.1 hcurrent
    have hfate := h.fate ha.ascending job.taskId
    have hno {task : ScheduledTask} (hfound : a.scheduler.find? job.taskId = some task)
        (hrun : task.latest = job.run) : False := by
      rw [Scheduler.current?_eq_some_iff.2 ⟨hfound, hrun⟩] at hstale
      cases hstale
    rw [hfind] at hfate
    generalize startTimes job.taskId seen = starts at hfate
    generalize hfound : a.scheduler.find? job.taskId = found at hfate
    cases hfate with
    | kept => exact (hno hfound hlatest).elim
    | enqueued hstep hid hnext =>
      -- A new task has had no run, so its number is zero again.
      exact absurd (congrArg RunId.value hlatest) (Nat.ne_of_lt hpos)
    | started hstep hdue hge hlt =>
      -- A new run has a number that no run before it had.
      rw [← hlatest] at hrun
      exact absurd hrun (Nat.not_lt.2 hge)
    | ended hstep hid hstage hrun hover hnext => exact (hno hfound hlatest).elim

/-- The task of the run is gone, or is another one of the same identity; the run has nothing to
tell. -/
structure Orphaned (a : Agent) (job : Job) : Prop where
  run_pos : 0 < job.run.value
  run_lt : job.run.value < a.scheduler.nextRunId
  stale : a.scheduler.intact = true → a.scheduler.current? job = none
  silent : ∀ events, a.stage? job = some (.reporting events) → events = []

theorem Orphaned.events_eq_nil (horphan : a.Orphaned job) {events : List SchedulerEvent}
    (hstage : (a.after step).stage? job = some (.reporting events)) : events = [] := by
  rcases stage?_after horphan.run_lt step with hsame | ⟨old, hold, hadvance⟩
  · rw [hsame] at hstage
    exact horphan.silent events hstage
  · rw [hstage] at hadvance
    cases hadvance with
    | completed => rw [Scheduler.complete_of_stale horphan.stale]
    -- Told events come off the front of those that were left, and none were.
    | told => cases horphan.silent _ hold

theorem Orphaned.after (ha : a.Sound) (horphan : a.Orphaned job) (step : Step) :
    (a.after step).Orphaned job where
  run_pos := horphan.run_pos
  run_lt := Nat.lt_of_lt_of_le horphan.run_lt (effect_after a step).nextRunId_le
  stale hb := by
    have hbefore := horphan.stale ((effect_after a step).intact hb)
    exact (effect_after a step).current?_eq_none ha horphan.run_pos horphan.run_lt hbefore
  silent _ hstage := horphan.events_eq_nil hstage

theorem Orphaned.afterAll (ha : a.Sound) (horphan : a.Orphaned job) (steps : List Step) :
    (a.afterAll steps).Orphaned job := by
  induction steps generalizing a with
  | nil => exact horphan
  | cons step rest ih => exact ih ((effect_after a step).sound ha) (horphan.after ha step)

-- Only of a pending run: one that has completed may still have events to tell.
theorem orphaned_of_remove (ha : a.Sound) {stage : Stage} (hstage : a.stage? job = some stage)
    (hpending : stage.isPending = true) : (a.after (.remove job.taskId)).Orphaned job := by
  have hrun := ha.flight_run _ ((stage?_eq_some_iff ha.inOrder).1 hstage)
  have hsilent : ∀ events, a.stage? job = some (.reporting events) → events = [] := by
    intro events hreporting
    rw [hstage] at hreporting
    cases hreporting
    cases hpending
  have habsent {s : Scheduler} (h : s.find? job.taskId = none) : s.current? job = none := by
    rw [Scheduler.current?, h]
    rfl
  rw [after]
  split
  · rename_i spec s hremove
    obtain ⟨-, task, -, -, rfl⟩ := Scheduler.remove_eq_ok hremove
    refine ⟨hrun.1, hrun.2, fun _ => habsent ?_, hsilent⟩
    exact (Scheduler.find?_removed _ _ _ _).trans (if_pos rfl)
  · -- The removal was refused, so the task was not there, or the tasks are lost.
    rename_i hrefused
    refine ⟨hrun.1, hrun.2, fun hintact => habsent ?_, hsilent⟩
    exact Scheduler.find?_of_remove_ne_ok hintact hrefused

theorem Orphaned.idle (horphan : a.Orphaned job) (hstep : step.IsOf job) :
    (a.after step).scheduler = a.scheduler ∧ a.shows step = [] := by
  cases step with
  | grantPermit j => exact ⟨(grantPermit_moves a j).scheduler_eq, rfl⟩
  | begin j => exact ⟨(begin_moves a j).scheduler_eq, rfl⟩
  | finish j outcome => exact ⟨(finish_moves a j outcome).scheduler_eq, rfl⟩
  | abandon j => exact ⟨rfl, rfl⟩
  | complete j now =>
    cases hstep
    exact complete_stale horphan.stale now
  | report j =>
    cases hstep
    refine ⟨(report_moves a job).scheduler_eq, ?_⟩
    rw [shows, report]
    split
    · rfl
    · rename_i hstage
      cases horphan.silent _ hstage
    · rfl
  | enqueue | remove | stop | shutDown | dispatch | announce | cancel | forget => cases hstep

/-! ## The theorem -/

/-- A completion changes something only for the latest run of its task.  It then records a result
exactly if the run has one, and whatever happens it leaves other tasks and reports alone.  Nothing
that a run does counts if its task was removed before it completed.  What `isPending` leaves out is a
run that has completed: it can still tell the status it ended with after its task was removed or
replaced. -/
theorem Reachable.completion_of_own_current_run (h : a.Reachable) (job : Job) :
    (∀ now, (a.after (.complete job now)).scheduler ≠ a.scheduler ∨
        a.shows (.complete job now) ≠ [] →
      ∃ task, a.scheduler.find? job.taskId = some task ∧ task.latest = job.run) ∧
    (∀ now task outcome, a.scheduler.intact = true →
      a.scheduler.find? job.taskId = some task → task.latest = job.run →
      a.stage? job = some (.measured outcome) →
      match Scheduler.resultOf outcome with
      | none =>
        (a.after (.complete job now)).scheduler.results = a.scheduler.results ∧
          a.shows (.complete job now) = []
      | some result =>
        (a.after (.complete job now)).scheduler.results =
            (a.scheduler.results.record job.taskId job.startedAt result).1 ∧
          a.shows (.complete job now) =
            [.recorded (a.scheduler.results.record job.taskId job.startedAt result).2]) ∧
    (∀ now, SameBut job a (a.after (.complete job now))) ∧
    (∀ stage, a.stage? job = some stage → stage.isPending = true → ∀ later step, step.IsOf job →
      (((a.after (.remove job.taskId)).afterAll later).after step).scheduler =
          ((a.after (.remove job.taskId)).afterAll later).scheduler ∧
        ((a.after (.remove job.taskId)).afterAll later).shows step = []) := by
  refine ⟨fun now hchanged => ?_, fun now task outcome hintact hfind hlatest hstage => ?_,
    complete_sameBut h.sound job, fun stage hstage hpending later step hstep => ?_⟩
  · cases hcurrent : a.scheduler.current? job with
    | some task => exact ⟨task, Scheduler.current?_eq_some_iff.1 hcurrent⟩
    | none =>
      obtain ⟨hscheduler, hshows⟩ := complete_stale (fun _ => hcurrent) now
      rcases hchanged with hne | hne
      · exact absurd hscheduler hne
      · exact absurd hshows hne
  · have hcurrent := Scheduler.current?_eq_some_iff.2 ⟨hfind, hlatest⟩
    have hcomplete := complete_current hintact hcurrent hstage now
    cases hresult : Scheduler.resultOf outcome with
    | none =>
      rw [hresult, Scheduler.record_none] at hcomplete
      exact hcomplete
    | some result =>
      rw [hresult, Scheduler.record_some] at hcomplete
      exact hcomplete
  · -- The removal makes an orphan of the run, and it stays one through the later steps.
    have hremoved := effect_after a (.remove job.taskId)
    have horphan := orphaned_of_remove h.sound hstage hpending
    exact (horphan.afterAll (hremoved.sound h.sound) later).idle hstep

/-- Probes to a host every minute. -/
def minutely : TaskSpec where
  id := ⟨6⟩
  method := "udpping"
  options := .obj [("host", .str "192.0.2.1")]
  timing := Schedule.fresh (.periodic ⟨⟨none, none⟩, 60000⟩)

/-- The first run of the task. -/
def minutelyJob : Job := ⟨⟨6⟩, ⟨1⟩, .epoch⟩

/-- The first run has no probes to report, and has not completed. -/
def minutelyMeasured : Agent :=
  (empty .builtIn (.empty 100) 2).afterAll [.enqueue minutely .epoch, .dispatch .epoch,
    .announce minutelyJob, .grantPermit minutelyJob, .begin minutelyJob,
    .finish minutelyJob (.ok (some (.ping (.ofProbes []))))]

/-- The task is removed, added again and started again.  Its first run, which would have recorded a
report, then records nothing. -/
theorem minutely_replaced :
    minutelyMeasured.shows (.complete minutelyJob .epoch) =
        [.recorded (.added 0 ⟨⟨6⟩, .epoch, [.ping (.ofProbes [])]⟩)] ∧
      let b := (minutelyMeasured.after (.remove ⟨6⟩)).afterAll
        [.enqueue minutely .epoch, .dispatch .epoch]
      (b.scheduler.find? ⟨6⟩).map (·.latest) = some ⟨2⟩ ∧
        b.stage? minutelyJob = some (.measured (.ok (some (.ping (.ofProbes []))))) ∧
        (b.after (.complete minutelyJob .epoch)).scheduler = b.scheduler ∧
        b.shows (.complete minutelyJob .epoch) = [] := by
  have hstage : minutelyMeasured.stage? minutelyJob =
      some (.measured (.ok (some (.ping (.ofProbes []))))) := rfl
  obtain ⟨task, hfind, hlatest⟩ : ∃ task, minutelyMeasured.scheduler.find? ⟨6⟩ = some task ∧
      task.latest = minutelyJob.run := ⟨_, rfl, rfl⟩
  have hreachable : minutelyMeasured.Reachable := (Reachable.empty _ _ _).afterAll _
  obtain ⟨-, hrecorded, -, horphan⟩ := hreachable.completion_of_own_current_run minutelyJob
  exact ⟨(hrecorded .epoch task _ rfl hfind hlatest hstage).2, rfl, rfl,
    horphan _ hstage rfl _ _ rfl⟩

end Agent

end ProbeAgent
