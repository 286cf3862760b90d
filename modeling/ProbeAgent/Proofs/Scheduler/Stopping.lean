import ProbeAgent.Proofs.Measurement.Cancellation
import ProbeAgent.Proofs.Scheduler.Agreement

/-!
# Stopping a task

A stop that finds a run tells it to stop for good.  A run that has not begun to measure then ends as
cancelled, without a result, and its task waits for the next one.  A run that measures does so only
if its session asks once more whether it has been cancelled; after its last question, and when it
has been measured already, it ends as it would have without the stop.
-/

namespace ProbeAgent

namespace Scheduler

theorem session_stopped (plan : RunPlan) : plan.session true = .error (.error .cancelled) := rfl

theorem conclusion_eq_idle_iff (outcome : Outcome) :
    (conclusion outcome).1 = .idle ↔ outcome = .error .cancelled := by
  rcases outcome with e | result
  · cases e <;> simp [conclusion]
  · simp [conclusion]

end Scheduler

namespace Agent

variable {a : Agent} {step : Step} {job : Job} {id : TaskId}

/-! ## Cancelled runs -/

theorem isCancelled_cancelRun {s : Scheduler} {run : RunId} (h : s.isCancelled run = true)
    (other : Option RunId) : (s.cancelRun other).isCancelled run = true := by
  rw [Scheduler.isCancelled, List.contains_iff_mem] at h ⊢
  exact List.mem_append_right _ h

/-- A run that was told to stop stays so. -/
theorem isCancelled_after (ha : a.Sound) {run : RunId} (h : a.scheduler.isCancelled run = true)
    (step : Step) : (a.after step).scheduler.isCancelled run = true := by
  have hmoves {job : Job} {b : Agent} (hb : Moves a job b) :
      b.scheduler.isCancelled run = true := by
    rw [hb.scheduler_eq]
    exact h
  cases step with
  | enqueue spec now =>
    rw [after]
    split
    · exact h
    · exact h
    · rename_i s henqueue
      obtain ⟨-, -, definition, next, -, -, rfl⟩ := Scheduler.enqueue_eq_ok henqueue
      exact h
  | remove id =>
    rw [after]
    split
    · rename_i spec s hremove
      obtain ⟨-, task, -, -, rfl⟩ := Scheduler.remove_eq_ok hremove
      exact isCancelled_cancelRun h task.cancel
    · exact h
  | stop id =>
    rw [after]
    split
    · rename_i stopped s hstop
      obtain ⟨-, task, -, -, rfl⟩ := Scheduler.stop_eq_ok hstop
      exact isCancelled_cancelRun h task.cancel
    · exact h
  | shutDown =>
    rw [after, shutDown]
    split
    · exact h
    · rename_i s hstop
      obtain ⟨-, rfl⟩ := Scheduler.stopAll_eq_ok hstop
      rw [Scheduler.isCancelled, List.contains_iff_mem] at h ⊢
      exact List.mem_append_right _ h
  | dispatch now =>
    rw [after, tryDispatch, dispatch]
    cases hdispatch : a.scheduler.dispatch now with
    | error e => exact h
    | ok result =>
      obtain ⟨jobs, s⟩ := result
      obtain ⟨-, tasks, next, -, rfl⟩ := Scheduler.dispatch_eq_ok hdispatch
      exact h
  | cancel other => exact isCancelled_cancelRun h (some other)
  | announce job => exact hmoves (announce_moves a job)
  | grantPermit job => exact hmoves (grantPermit_moves a job)
  | begin job => exact hmoves (begin_moves a job)
  | finish job outcome => exact hmoves (finish_moves a job outcome)
  | report job => exact hmoves (report_moves a job)
  | complete job now =>
    rw [Scheduler.isCancelled, (complete_sameBut ha job now).cancelled]
    exact h
  | abandon job | forget id => exact h

/-! ## The stage of a stopped run -/

/-- Whether a run at this stage has begun to measure, so that it may have asked for the last time. -/
def HasBegun : Option Stage → Prop
  | some .measuring | some (.measured _) => True
  | _ => False

/-- With what outcome a run can be measured after some steps, if it is told to stop before them at
some stage. -/
def EndsWith (job : Job) (before : Option Stage) (later : List Step)
    (outcome : Scheduler.Outcome) : Prop :=
  match before with
  | some .measuring => Step.finish job outcome ∈ later
  | some (.measured old) => outcome = old
  | _ => outcome = .error .cancelled

/-- What the stage of that run can be. -/
def ComesTo (job : Job) (before : Option Stage) (later : List Step) : Option Stage → Prop
  | none | some (.reporting _) => True
  | some (.measured outcome) => EndsWith job before later outcome
  | some .measuring => before = some .measuring
  | some .announcing | some .queued | some .admitted => ¬ HasBegun before

theorem endsWith_cancelled {before : Option Stage} (h : ¬ HasBegun before) (later : List Step) :
    EndsWith job before later (.error .cancelled) := by
  unfold EndsWith
  split
  · exact absurd trivial h
  · exact absurd trivial h
  · rfl

theorem EndsWith.append {before : Option Stage} {later : List Step} {outcome : Scheduler.Outcome}
    (h : EndsWith job before later outcome) (step : Step) :
    EndsWith job before (later ++ [step]) outcome := by
  unfold EndsWith at h ⊢
  split at h
  · exact List.mem_append_left _ h
  · exact h
  · exact h

theorem comesTo_self (job : Job) (before : Option Stage) : ComesTo job before [] before := by
  unfold ComesTo
  split
  · trivial
  · trivial
  · rfl
  · rfl
  · exact fun h => h
  · exact fun h => h
  · exact fun h => h

theorem ComesTo.append {before stage : Option Stage} {later : List Step}
    (h : ComesTo job before later stage) (step : Step) :
    ComesTo job before (later ++ [step]) stage := by
  unfold ComesTo at h ⊢
  split at h
  · trivial
  · trivial
  · exact h.append step
  · exact h
  · exact h
  · exact h
  · exact h

/-- A run that was told to stop does not begin to measure any more. -/
theorem ComesTo.after {before : Option Stage} {later : List Step}
    (h : ComesTo job before later (a.stage? job)) (hrun : job.run.value < a.scheduler.nextRunId)
    (hcancelled : a.scheduler.isCancelled job.run = true) (step : Step) :
    ComesTo job before (later ++ [step]) ((a.after step).stage? job) := by
  rcases stage?_after hrun step with hsame | ⟨old, hold, hadvance⟩
  · rw [hsame]
    exact h.append step
  · rw [hold] at h
    generalize (a.after step).stage? job = stage at hadvance ⊢
    cases hadvance with
    | announced => exact h
    | admitted hfree => exact h
    | skipped hplan hsession =>
      rw [hcancelled, Scheduler.session_stopped] at hsession
      cases hsession
      exact endsWith_cancelled h _
    | begun hplan hsession =>
      rw [hcancelled, Scheduler.session_stopped] at hsession
      cases hsession
    | finished =>
      cases h
      exact List.mem_append_right _ List.mem_cons_self
    | dropped | completed | told | gone | abandoned => trivial

theorem comesTo_afterAll (ha : a.Sound) (hrun : job.run.value < a.scheduler.nextRunId)
    (hcancelled : a.scheduler.isCancelled job.run = true) {before : Option Stage}
    {earlier : List Step} (h : ComesTo job before earlier (a.stage? job)) (later : List Step) :
    (a.afterAll later).scheduler.isCancelled job.run = true ∧
      ComesTo job before (earlier ++ later) ((a.afterAll later).stage? job) := by
  induction later generalizing a earlier with
  | nil =>
    rw [List.append_nil]
    exact ⟨hcancelled, h⟩
  | cons step rest ih =>
    have heffect := effect_after a step
    rw [List.append_cons]
    exact ih (heffect.sound ha) (Nat.lt_of_lt_of_le hrun heffect.nextRunId_le)
      (isCancelled_after ha hcancelled step) (h.after hrun hcancelled step)

/-! ## The completion of a run -/

/-- The status that the completion of a run leaves, unless the time after it has no date. -/
theorem status_of_complete (hintact : a.scheduler.intact = true) {task : ScheduledTask}
    (hcurrent : a.scheduler.current? job = some task) {outcome : Scheduler.Outcome}
    (hstage : a.stage? job = some (.measured outcome)) {now : Instant}
    (hafter : (a.after (.complete job now)).scheduler.intact = true) :
    ∃ t, (a.after (.complete job now)).scheduler.find? job.taskId = some t ∧
      t.status = (Scheduler.conclusion outcome).1 := by
  rw [after, complete_of_measured hstage] at hafter ⊢
  rcases Scheduler.complete_of_current hintact hcurrent outcome now with
    hcomplete | ⟨next, -, hcomplete⟩
  · rw [hcomplete] at hafter
    cases hafter
  · rw [hcomplete]
    exact ⟨_, Scheduler.find?_ended (Scheduler.current?_eq_some_iff.1 hcurrent).1 _ _ _, rfl⟩

theorem shows_complete_ne_nil_iff {outcome : Scheduler.Outcome}
    (hstage : a.stage? job = some (.measured outcome)) (now : Instant) :
    a.shows (.complete job now) ≠ [] ↔ a.scheduler.intact = true ∧
      (a.scheduler.current? job).isSome = true ∧ Scheduler.resultOf outcome ≠ none := by
  by_cases hstale : a.scheduler.intact = true → a.scheduler.current? job = none
  · rw [(complete_stale hstale now).2]
    constructor
    · exact fun h => absurd rfl h
    · rintro ⟨hintact, hcurrent, -⟩
      rw [hstale hintact] at hcurrent
      cases hcurrent
  · obtain ⟨hintact, hsome⟩ := Classical.not_imp.1 hstale
    obtain ⟨task, hcurrent⟩ := Option.ne_none_iff_exists'.1 hsome
    rw [(complete_current hintact hcurrent hstage now).2, hcurrent]
    cases Scheduler.resultOf outcome with
    | none => simp [Scheduler.record_none]
    | some result => simp [Scheduler.record_some, hintact]

/-- The session that a run gets is that of a measurement. -/
theorem session_of_begin {session : Run (Option RunResult)}
    (h : (a.begin job).1 = some session) :
    ∃ measurement definition, session = Measurement.perform measurement definition := by
  rw [Agent.begin] at h
  split at h
  · split at h
    · cases h
    · cases h
    · rename_i plan hplan
      unfold Scheduler.RunPlan.session at h
      cases hstopped : a.scheduler.isCancelled job.run with
      | true =>
        rw [hstopped] at h
        cases h
      | false =>
        cases hmeasurement : plan.measurement with
        | error e =>
          rw [hstopped, hmeasurement] at h
          cases h
        | ok measurement =>
          rw [hstopped, hmeasurement] at h
          cases h
          exact ⟨measurement, plan.definition, rfl⟩
  · cases h

/-! ## The theorem -/

/-- A stop that finds a run leaves the run told to stop for good.  If the run has not begun to
measure, it ends as cancelled; if it has been measured, its outcome stays; and if it measures, its
session ends as cancelled exactly if it is told so when it asks.  When the run completes and counts,
it records nothing exactly if the outcome has no result, and the task is idle exactly if the run
ended as cancelled. -/
theorem Reachable.stopped_run (h : a.Reachable) {s : Scheduler}
    (hstop : a.scheduler.stop id = .ok (.ok (true, s))) :
    (∃ task, a.scheduler.find? id = some task ∧ task.status = .running ∧
      ∀ job, job.taskId = id → job.run = task.latest → ∀ later : List Step,
        let b := (a.after (.stop id)).afterAll later
        b.scheduler.isCancelled job.run = true ∧
        ∀ outcome, b.stage? job = some (.measured outcome) →
          EndsWith job (a.stage? job) later outcome ∧
          ∀ now,
            (b.shows (.complete job now) ≠ [] ↔ b.scheduler.intact = true ∧
              (b.scheduler.current? job).isSome = true ∧ Scheduler.resultOf outcome ≠ none) ∧
            (b.scheduler.intact = true → (b.scheduler.current? job).isSome = true →
              (b.after (.complete job now)).scheduler.intact = true →
              ((∃ t, (b.after (.complete job now)).scheduler.find? id = some t ∧
                t.status = .idle) ↔ outcome = .error .cancelled))) ∧
    ∀ (c : Agent) (job : Job) (session : Run (Option RunResult)), (c.begin job).1 = some session →
      ∀ acts outcome, (ExceptT.run session).Yields acts outcome →
        (outcome = .error .cancelled ↔ .isCancelled true ∈ acts) := by
  constructor
  · obtain ⟨hintact, task, hfind, hsome, rfl⟩ := Scheduler.stop_eq_ok hstop
    have hcoherent := h.coherent task (List.mem_of_find?_eq_some hfind)
    have hrunning := hcoherent.running_iff.2 hsome.symm
    have hafter : a.after (.stop id) = a.withScheduler (a.scheduler.cancelRun task.cancel) := by
      rw [Agent.after, hstop]
    refine ⟨task, hfind, hrunning, fun job hid hrun later => ?_⟩
    subst hid
    have ha : (a.after (.stop job.taskId)).Sound := (h.after _).sound
    have hlt : job.run.value < (a.after (.stop job.taskId)).scheduler.nextRunId := by
      rw [hafter, hrun]
      exact h.sound.latest_lt task (List.mem_of_find?_eq_some hfind)
    have hcancelled : (a.after (.stop job.taskId)).scheduler.isCancelled job.run = true := by
      rw [hafter, hcoherent.cancel_eq, if_pos hrunning, hrun, Scheduler.isCancelled,
        List.contains_iff_mem]
      exact List.mem_cons_self
    have hstart : ComesTo job (a.stage? job) [] ((a.after (.stop job.taskId)).stage? job) := by
      rw [hafter]
      exact comesTo_self job (a.stage? job)
    obtain ⟨hstays, hcomes⟩ := comesTo_afterAll ha hlt hcancelled hstart later
    refine ⟨hstays, fun outcome hstage => ?_⟩
    rw [hstage] at hcomes
    refine ⟨hcomes, fun now => ⟨shows_complete_ne_nil_iff hstage now, ?_⟩⟩
    intro hbefore hcurrent hdone
    obtain ⟨t, hcurrent⟩ := Option.isSome_iff_exists.1 hcurrent
    obtain ⟨t', hfind', hstatus⟩ := status_of_complete hbefore hcurrent hstage hdone
    rw [hfind', ← Scheduler.conclusion_eq_idle_iff, ← hstatus]
    simp
  · intro c job session hsession acts outcome hyields
    obtain ⟨measurement, definition, rfl⟩ := session_of_begin hsession
    exact Measurement.heeds_perform measurement definition acts outcome hyields

/-- A task is stopped while its run waits for a permit.  The run then measures nothing, records
nothing, and leaves the task idle. -/
theorem minutely_stopped :
    let a := (empty .builtIn (.empty 100) 2).afterAll [.enqueue minutely .epoch, .dispatch .epoch]
    let b := (a.after (.stop ⟨6⟩)).afterAll
      [.announce minutelyJob, .grantPermit minutelyJob, .begin minutelyJob]
    (∃ s, a.scheduler.stop ⟨6⟩ = .ok (.ok (true, s))) ∧
      b.stage? minutelyJob = some (.measured (.error .cancelled)) ∧
      b.shows (.complete minutelyJob .epoch) = [] ∧
      ∃ t, (b.after (.complete minutelyJob .epoch)).scheduler.find? ⟨6⟩ = some t ∧
        t.status = .idle := by
  intro a b
  have hreachable : a.Reachable := (Reachable.empty _ _ _).afterAll _
  have hstop : a.scheduler.stop ⟨6⟩ =
      .ok (.ok (true, a.scheduler.cancelRun (some minutelyJob.run))) := rfl
  have hstage : b.stage? minutelyJob = some (.measured (.error .cancelled)) := rfl
  obtain ⟨⟨task, hfind, -, hruns⟩, -⟩ := hreachable.stopped_run hstop
  have hlatest : minutelyJob.run = task.latest := by
    cases hfind
    rfl
  obtain ⟨-, hmeasured⟩ := hruns minutelyJob rfl hlatest
    [.announce minutelyJob, .grantPermit minutelyJob, .begin minutelyJob]
  obtain ⟨-, hcomplete⟩ := hmeasured _ hstage
  obtain ⟨hshows, hidle⟩ := hcomplete .epoch
  refine ⟨⟨_, hstop⟩, hstage, ?_, (hidle rfl rfl rfl).2 rfl⟩
  exact Classical.byContradiction fun hrecorded => (hshows.1 hrecorded).2.2 rfl

/-- A probe to a host every minute. -/
def singleProbe : TaskSpec where
  id := ⟨3⟩
  method := "udpping"
  options := .obj [("host", .str "192.0.2.1"), ("count", .int 1)]
  timing := Schedule.fresh (.periodic ⟨⟨none, none⟩, 60000⟩)

/-- The first run of the task. -/
def singleProbeJob : Job := ⟨⟨3⟩, ⟨1⟩, .epoch⟩

/-- The first run is about to measure. -/
def singleProbeAdmitted : Agent :=
  (empty .builtIn (.empty 100) 2).afterAll [.enqueue singleProbe .epoch, .dispatch .epoch,
    .announce singleProbeJob, .grantPermit singleProbeJob]

def refusal : TransportError := .io "socket" ⟨.permissionDenied, "refused"⟩

/-- A network without sockets, on which somebody stops the task as one is asked for. -/
def stoppingNetwork : Network (StateM Agent) where
  isCancelled := return (← get).scheduler.isCancelled singleProbeJob.run
  cancel := return ()
  openSocket _ := do
    modify (·.after (.stop ⟨3⟩))
    return .error refusal
  send _ := return .ok 0
  looks _ := return 0
  receive := return .ok none
  closeSocket := return ()
  sleep _ := return ()
  drawRequestId := return 0
  drawPorts := return .ofDraws 0 0

/-- The stop finds a run and tells it to stop, but the run does not ask again.  It ends with a result
that is recorded, and the task is finished instead of idle. -/
theorem singleProbe_stopped_too_late :
    ∃ session outcome,
      (singleProbeAdmitted.begin singleProbeJob).1 = some session ∧
      (∃ s, (singleProbeAdmitted.after (.begin singleProbeJob)).scheduler.stop ⟨3⟩ =
        .ok (.ok (true, s))) ∧
      (Session.run stoppingNetwork (ExceptT.run session)).run
          (singleProbeAdmitted.after (.begin singleProbeJob)) =
        (outcome, (singleProbeAdmitted.after (.begin singleProbeJob)).after (.stop ⟨3⟩)) ∧
      let b := singleProbeAdmitted.afterAll
        [.begin singleProbeJob, .stop ⟨3⟩, .finish singleProbeJob outcome]
      b.shows (.complete singleProbeJob .epoch) =
          [.recorded (.added 0 ⟨⟨3⟩, .epoch,
            [.ping (.ofProbes [PingProbe.unanswered.failed refusal.message])]⟩)] ∧
        ((b.after (.complete singleProbeJob .epoch)).scheduler.find? ⟨3⟩).map (·.status) =
          some .finished :=
  ⟨_, _, rfl, ⟨_, rfl⟩, rfl, rfl, rfl⟩

end Agent

end ProbeAgent
