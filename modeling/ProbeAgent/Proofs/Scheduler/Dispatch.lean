import ProbeAgent.Proofs.Schedule.Exhaustion
import ProbeAgent.Proofs.Scheduler.Agreement
import ProbeAgent.Proofs.Scheduler.Spacing

/-!
# What a dispatch starts

A dispatch starts a run of each task that is due and of no other (`Agent.Dispatches`), and afterwards
nothing is due.  If no run was in progress before it, this stays so while the clock stands
(`Agent.SettledAt`): a run that ends gets a next run that is later than its start, which was now.
-/

namespace ProbeAgent

/-- The step leaves the set of tasks as it is, and if it needs the time then it is this. -/
def Step.StaysAt (now : Instant) : Step → Prop
  | enqueue _ _ | remove _ => False
  | dispatch t | complete _ t => t = now
  | stop _ | shutDown | announce _ | grantPermit _ | begin _ | cancel _ | finish _ _ | report _
  | abandon _ | forget _ => True

theorem Step.StaysAt.noLeap {now : Instant} {step : Step} (h : step.StaysAt now)
    (hnow : now.isLeap = false) : step.NoLeap := by
  cases step with
  | enqueue | remove => cases h
  | dispatch t | complete job t =>
    cases h
    exact hnow
  | stop | shutDown | announce | grantPermit | begin | cancel | finish | report | abandon | forget =>
    trivial

/-! ## One task -/

theorem Timing.exists_nextRunFrom {t : Timing} {reference : Instant} (h : ¬ t.Overflows reference) :
    ∃ next, t.nextRunFrom reference = .ok next := by
  rcases t.nextRunFrom_answers reference with ⟨hover, -⟩ | ⟨-, next, hnext, -⟩
  · exact absurd hover h
  · exact ⟨next, hnext⟩

namespace ScheduledTask

variable {task : ScheduledTask} {now : Instant}

theorem dispatched_eq_started (h : ¬ (task.spec.timing.ranAt now).Overflows now) (run : RunId) :
    task.dispatched now run = .ok (task.started now run) := by
  obtain ⟨next, hnext⟩ := Timing.exists_nextRunFrom h
  rw [dispatched, Timing.hasNextRun, hnext]
  rfl

/-- The task is not due, and a run that is in progress started now, so that its end brings a later
next run, or none. -/
structure SettledAt (task : ScheduledTask) (now : Instant) : Prop where
  not_due : task.isDue now = false
  running : task.status = .running →
    task.spec.timing.lastRun = some now ∧ ¬ task.spec.timing.Overflows now

theorem settledAt_started (h : ¬ (task.spec.timing.ranAt now).Overflows now) (run : RunId) :
    (task.started now run).SettledAt now :=
  ⟨rfl, fun _ => ⟨rfl, h⟩⟩

/-- A run that started now and ends now has a next run that is later. -/
theorem settledAt_ended (hleap : task.spec.timing.NoLeap) (hnow : now.isLeap = false)
    (hlast : task.spec.timing.lastRun = some now) {outcome : Scheduler.Outcome}
    {next : Option Instant}
    (hnext : Scheduler.nextAfter task (Scheduler.conclusion outcome).1 now = .ok next) :
    (task.ended (Scheduler.conclusion outcome).1 (Scheduler.conclusion outcome).2 next).SettledAt
      now where
  running h := absurd h (Scheduler.conclusion_ne_running outcome)
  not_due := by
    rw [← Bool.not_eq_true, isDue_iff]
    rintro ⟨-, run, hrun, hle⟩
    cases hrun
    have hoffered := Scheduler.nextAfter_eq_some hnext
    have hfar := Timing.lt_since_of_nextRunFrom hleap hlast hoffered
    have hrunleap := Timing.isLeap_of_nextRunFrom hleap hnow hoffered
    have hlater : now < run := by
      refine Instant.lt_of_since_pos hrunleap hnow ?_
      simp only [nanosPerSecond] at hfar
      omega
    exact Instant.not_le.2 hlater hle

end ScheduledTask

/-! ## The tasks of a scheduler -/

namespace Scheduler

variable {s : Scheduler} {now : Instant} {tasks tasks' : List ScheduledTask} {jobs : List Job}
variable {next last : Nat}

theorem exists_dispatchDue
    (h : ∀ task ∈ tasks, task.isDue now = true → ¬ (task.spec.timing.ranAt now).Overflows now)
    (next : Nat) : ∃ result, dispatchDue now tasks next = .ok result := by
  induction tasks generalizing next with
  | nil => exact ⟨_, rfl⟩
  | cons task rest ih =>
    have ih := ih fun t ht => h t (.tail _ ht)
    rw [dispatchDue]
    split
    · rename_i hdue
      obtain ⟨result, hrest⟩ := ih (next + 1)
      rw [ScheduledTask.dispatched_eq_started (h task List.mem_cons_self hdue), hrest]
      exact ⟨_, rfl⟩
    · obtain ⟨result, hrest⟩ := ih next
      rw [hrest]
      exact ⟨_, rfl⟩

theorem dispatchDue_of_not_due (h : ∀ task ∈ tasks, task.isDue now = false) (next : Nat) :
    dispatchDue now tasks next = .ok (tasks, [], next) := by
  induction tasks with
  | nil => rfl
  | cons task rest ih =>
    rw [dispatchDue, h task List.mem_cons_self, ih fun t ht => h t (.tail _ ht)]
    rfl

namespace StartsDue

theorem map_taskId (h : StartsDue now next tasks tasks' jobs last) :
    jobs.map (·.taskId) = (tasks.filter (·.isDue now)).map (·.id) := by
  induction h with
  | nil => rfl
  | due hdue h ih =>
    rw [List.filter_cons_of_pos (by simpa using hdue), List.map_cons, List.map_cons, ih]
  | skip hskip h ih =>
    rw [List.filter_cons_of_neg (by simpa using hskip), ih]

theorem ids_ascending (h : StartsDue now next tasks tasks' jobs last) (hasc : Ascending tasks) :
    jobs.Pairwise (·.taskId.value < ·.taskId.value) := by
  have hdue : (jobs.map (·.taskId)).Pairwise (·.value < ·.value) := by
    rw [h.map_taskId]
    exact List.pairwise_map.2 (List.Pairwise.filter _ hasc)
  have := List.pairwise_map.1 hdue
  exact this

theorem exists_job_iff (h : StartsDue now next tasks tasks' jobs last) (hasc : Ascending tasks)
    {id : TaskId} : (∃ job ∈ jobs, job.taskId = id) ↔
      ∃ task, tasks.find? (·.id = id) = some task ∧ task.isDue now = true := by
  rw [← List.mem_map, h.map_taskId, List.mem_map]
  constructor
  · rintro ⟨task, htask, rfl⟩
    obtain ⟨hmem, hdue⟩ := List.mem_filter.1 htask
    exact ⟨task, (find?_eq_some_iff hasc).2 ⟨hmem, rfl⟩, hdue⟩
  · rintro ⟨task, hfind, hdue⟩
    obtain ⟨hmem, hid⟩ := (find?_eq_some_iff hasc).1 hfind
    exact ⟨task, List.mem_filter.2 ⟨hmem, hdue⟩, hid⟩

theorem started_of_mem (h : StartsDue now next tasks tasks' jobs last) (hasc : Ascending tasks)
    {job : Job} (hjob : job ∈ jobs) :
    ∃ task, tasks.find? (·.id = job.taskId) = some task ∧
      tasks'.find? (·.id = job.taskId) = some (task.started now job.run) := by
  obtain ⟨task, hfind, -⟩ := (h.exists_job_iff hasc).1 ⟨job, hjob, rfl⟩
  have hmine : job ∈ jobs.filter (·.taskId = job.taskId) :=
    List.mem_filter.2 ⟨hjob, decide_eq_true rfl⟩
  refine ⟨task, hfind, ?_⟩
  rcases h.of_find?_eq_some hasc hfind with ⟨-, run, -, -, hafter, honly⟩ | ⟨-, hnone⟩
  · rw [honly, List.mem_singleton] at hmine
    rw [hafter, hmine]
  · rw [hnone] at hmine
    cases hmine

theorem kept_of_no_job (h : StartsDue now next tasks tasks' jobs last) (hasc : Ascending tasks)
    {id : TaskId} (hno : ∀ job ∈ jobs, job.taskId ≠ id) :
    tasks'.find? (·.id = id) = tasks.find? (·.id = id) := by
  cases hfind : tasks.find? (·.id = id) with
  | none => exact (h.of_find?_eq_none hfind).1
  | some task =>
    rcases h.of_find?_eq_some hasc hfind with ⟨-, run, -, -, -, honly⟩ | ⟨hafter, -⟩
    · have hjob : (⟨id, ⟨run⟩, now⟩ : Job) ∈ jobs.filter (·.taskId = id) := by
        rw [honly]
        exact List.mem_singleton_self _
      exact absurd rfl (hno _ (List.mem_filter.1 hjob).1)
    · exact hafter

theorem mem_after (h : StartsDue now next tasks tasks' jobs last) {t : ScheduledTask}
    (ht : t ∈ tasks') :
    (∃ task ∈ tasks, task.isDue now = true ∧ ∃ run, t = task.started now run) ∨
      (t ∈ tasks ∧ t.isDue now = false) := by
  induction h with
  | nil => cases ht
  | due hdue h ih =>
    rcases List.mem_cons.1 ht with rfl | ht
    · exact .inl ⟨_, List.mem_cons_self, hdue, _, rfl⟩
    · rcases ih ht with ⟨task, hmem, hrest⟩ | ⟨hmem, hskip⟩
      · exact .inl ⟨task, .tail _ hmem, hrest⟩
      · exact .inr ⟨.tail _ hmem, hskip⟩
  | skip hskip h ih =>
    rcases List.mem_cons.1 ht with rfl | ht
    · exact .inr ⟨List.mem_cons_self, hskip⟩
    · rcases ih ht with ⟨task, hmem, hrest⟩ | ⟨hmem, hskip⟩
      · exact .inl ⟨task, .tail _ hmem, hrest⟩
      · exact .inr ⟨.tail _ hmem, hskip⟩

theorem not_due_after (h : StartsDue now next tasks tasks' jobs last) {t : ScheduledTask}
    (ht : t ∈ tasks') : t.isDue now = false := by
  rcases h.mem_after ht with ⟨task, -, -, run, rfl⟩ | ⟨-, hskip⟩
  · rfl
  · exact hskip

end StartsDue

/-! ### The next time to look -/

theorem mem_of_foldl_earlier {times : List Instant} {first : Option Instant} {t : Instant}
    (h : times.foldl earlier first = some t) : first = some t ∨ t ∈ times := by
  induction times generalizing first with
  | nil => exact .inl h
  | cons other rest ih =>
    rcases ih h with hfirst | hmem
    · have hcases : first = some t ∨ other = t := by
        unfold earlier at hfirst
        split at hfirst
        · exact .inr (Option.some.inj hfirst)
        · split at hfirst
          · exact .inr (Option.some.inj hfirst)
          · exact .inl hfirst
      rcases hcases with hfirst | rfl
      · exact .inl hfirst
      · exact .inr List.mem_cons_self
    · exact .inr (.tail _ hmem)

/-- If nothing is due, what is next comes later. -/
theorem nextDue_of_not_due (hintact : s.intact = true)
    (h : ∀ task ∈ s.tasks, task.isDue now = false) :
    ∃ due, s.nextDue = .ok due ∧ ∀ t, due = some t → now < t := by
  refine ⟨_, by rw [nextDue, checkIntact_of_intact hintact]; rfl, fun t ht => ?_⟩
  rcases mem_of_foldl_earlier ht with hnone | hmem
  · cases hnone
  · obtain ⟨task, htask, hnext⟩ := List.mem_filterMap.1 hmem
    obtain ⟨hmem, hwaiting⟩ := List.mem_filter.1 htask
    rw [← Instant.not_le]
    intro hle
    have hdue := ScheduledTask.isDue_iff.2 ⟨hwaiting, t, hnext, hle⟩
    rw [h task hmem] at hdue
    contradiction

end Scheduler

namespace Agent

variable {a b : Agent} {step : Step} {now : Instant} {jobs : List Job}

/-! ## While the clock stands -/

theorem dispatch_of_not_due (hintact : a.scheduler.intact = true)
    (h : ∀ task ∈ a.scheduler.tasks, task.isDue now = false) : a.dispatch now = .ok ([], a) := by
  have hscheduler : a.scheduler.dispatch now = .ok ([], a.scheduler) := by
    rw [Scheduler.dispatch, Scheduler.checkIntact_of_intact hintact,
      Scheduler.dispatchDue_of_not_due h]
    rfl
  rw [dispatch, hscheduler]
  simp [bind, Except.bind, pure, Except.pure]

/-- Nothing starts now, and the end of a run does not change that. -/
structure SettledAt (a : Agent) (now : Instant) : Prop where
  sound : a.Sound
  noLeap : a.NoLeap
  intact : a.scheduler.intact = true
  tasks : ∀ task ∈ a.scheduler.tasks, task.SettledAt now

theorem SettledAt.dispatch (h : a.SettledAt now) : a.dispatch now = .ok ([], a) :=
  dispatch_of_not_due h.intact fun task htask => (h.tasks task htask).not_due

/-- What a completion leaves of the tasks, if its run counts. -/
theorem SettledAt.completed (h : a.SettledAt now) (hnow : now.isLeap = false) {job : Job}
    {outcome : Scheduler.Outcome} {task : ScheduledTask}
    (hstage : a.stage? job = some (.measured outcome))
    (hcurrent : a.scheduler.current? job = some task) :
    (a.after (.complete job now)).scheduler.intact = true ∧
      ∀ t ∈ (a.after (.complete job now)).scheduler.tasks, t.SettledAt now := by
  have hmem := List.mem_of_find?_eq_some (Scheduler.current?_eq_some_iff.1 hcurrent).1
  have hsettled := h.tasks task hmem
  -- A measured run that counts is the one in progress.
  have hflight := (stage?_eq_some_iff h.sound.inOrder).1 hstage
  have hrunning := (h.sound.pending _ hflight rfl task hcurrent).1
  obtain ⟨hlast, hover⟩ := hsettled.running hrunning
  obtain ⟨next, hnext⟩ : ∃ next,
      Scheduler.nextAfter task (Scheduler.conclusion outcome).1 now = .ok next := by
    unfold Scheduler.nextAfter
    split
    · exact ⟨none, rfl⟩
    · exact Timing.exists_nextRunFrom hover
  rw [after, complete_of_measured hstage, Scheduler.complete_of_next h.intact hcurrent hnext,
    Scheduler.record_eq]
  refine ⟨h.intact, fun t ht => ?_⟩
  obtain ⟨old, hold, rfl⟩ := List.mem_map.1 ht
  split
  · exact ScheduledTask.settledAt_ended (h.noLeap task hmem).timing hnow hlast hnext
  · exact h.tasks old hold

theorem stop_keeps (a : Agent) (id : TaskId) :
    (a.after (.stop id)).scheduler.intact = a.scheduler.intact ∧
      (a.after (.stop id)).scheduler.tasks = a.scheduler.tasks := by
  rw [after]
  split
  · rename_i hstop
    obtain ⟨-, task, -, -, rfl⟩ := Scheduler.stop_eq_ok hstop
    exact ⟨rfl, rfl⟩
  · exact ⟨rfl, rfl⟩

theorem shutDown_keeps (a : Agent) :
    (a.after .shutDown).scheduler.intact = a.scheduler.intact ∧
      (a.after .shutDown).scheduler.tasks = a.scheduler.tasks := by
  rw [after, shutDown]
  split
  · exact ⟨rfl, rfl⟩
  · rename_i hstop
    obtain ⟨-, rfl⟩ := Scheduler.stopAll_eq_ok hstop
    exact ⟨rfl, rfl⟩

theorem SettledAt.after (h : a.SettledAt now) (hnow : now.isLeap = false) (hstep : step.StaysAt now) :
    (a.after step).SettledAt now := by
  have heffect := effect_after a step
  have hleap := heffect.noLeap h.sound.ascending h.noLeap (hstep.noLeap hnow)
  have hkept (hintact : (a.after step).scheduler.intact = a.scheduler.intact)
      (htasks : (a.after step).scheduler.tasks = a.scheduler.tasks) : (a.after step).SettledAt now :=
    ⟨heffect.sound h.sound, hleap, hintact.trans h.intact, htasks ▸ h.tasks⟩
  have hmoved {job : Job} (hmoves : Moves a job (a.after step)) : (a.after step).SettledAt now := by
    have heq := hmoves.scheduler_eq
    exact hkept (congrArg Scheduler.intact heq) (congrArg Scheduler.tasks heq)
  cases step with
  | enqueue | remove => cases hstep
  | dispatch t =>
    cases hstep
    rw [Agent.after, tryDispatch, h.dispatch]
    exact h
  | complete job t =>
    cases hstep
    -- Only the end of the run in progress touches the tasks.
    by_cases hcounts : ∃ outcome task, a.stage? job = some (.measured outcome) ∧
        a.scheduler.current? job = some task
    · obtain ⟨outcome, task, hstage, hcurrent⟩ := hcounts
      obtain ⟨hintact, htasks⟩ := h.completed hnow hstage hcurrent
      exact ⟨heffect.sound h.sound, hleap, hintact, htasks⟩
    · rcases complete_cases a job now with hsame | ⟨outcome, -, hsame⟩ |
        ⟨outcome, task, -, hstage, hcurrent, -⟩
      · exact hkept (by rw [Agent.after, hsame]) (by rw [Agent.after, hsame])
      · exact hkept (by rw [Agent.after, hsame]; rfl) (by rw [Agent.after, hsame]; rfl)
      · exact absurd ⟨outcome, task, hstage, hcurrent⟩ hcounts
  | stop id => exact hkept (stop_keeps a id).1 (stop_keeps a id).2
  | shutDown => exact hkept (shutDown_keeps a).1 (shutDown_keeps a).2
  | cancel run | forget id => exact hkept rfl rfl
  | announce job => exact hmoved (announce_moves a job)
  | grantPermit job => exact hmoved (grantPermit_moves a job)
  | begin job => exact hmoved (begin_moves a job)
  | finish job outcome => exact hmoved (finish_moves a job outcome)
  | report job => exact hmoved (report_moves a job)
  | abandon job => exact hmoved .land

theorem SettledAt.afterAll (h : a.SettledAt now) (hnow : now.isLeap = false) {steps : List Step}
    (hsteps : ∀ step ∈ steps, step.StaysAt now) : (a.afterAll steps).SettledAt now := by
  induction steps generalizing a with
  | nil => exact h
  | cons step rest ih =>
    exact ih (h.after hnow (hsteps step List.mem_cons_self)) fun s hs => hsteps s (.tail _ hs)

/-! ## The theorem -/

/-- What a dispatch does that gives these jobs and leaves `b`.  `seen` is what happened before it. -/
structure Dispatches (seen : List Happening) (a : Agent) (now : Instant) (jobs : List Job)
    (b : Agent) : Prop where
  -- Exactly the due tasks have a job, and each of them has one.
  due : ∀ id, (∃ job ∈ jobs, job.taskId = id) ↔ ∃ task, a.scheduler.find? id = some task ∧
    (task.status = .idle ∨ task.status = .finished) ∧ ∃ next, task.nextRun = some next ∧ next ≤ now
  ids_ascending : jobs.Pairwise (·.taskId.value < ·.taskId.value)
  runs_ascending : jobs.Pairwise (·.run.value < ·.run.value)
  fresh : ∀ job ∈ jobs, ∀ old, .started old ∈ seen → old.run.value < job.run.value
  started : ∀ job ∈ jobs, job.startedAt = now ∧ ∃ task,
    a.scheduler.find? job.taskId = some task ∧
      b.scheduler.find? job.taskId = some (task.started now job.run)
  kept : ∀ id, (∀ job ∈ jobs, job.taskId ≠ id) → b.scheduler.find? id = a.scheduler.find? id
  -- Nothing but the tasks, the next number and the runs in flight is touched.
  others : b = { a with
    scheduler := { a.scheduler with tasks := b.scheduler.tasks, nextRunId := b.scheduler.nextRunId }
    flights := a.flights ++ jobs.map (Flight.mk · .announcing) }

theorem nextRunId_le_afterAll (a : Agent) (steps : List Step) :
    a.scheduler.nextRunId ≤ (a.afterAll steps).scheduler.nextRunId := by
  induction steps generalizing a with
  | nil => exact Nat.le_refl _
  | cons step rest ih => exact Nat.le_trans (effect_after a step).nextRunId_le (ih (a.after step))

/-- All runs of the past have smaller numbers than the next one. -/
theorem run_lt_of_started {old : Job} {steps : List Step} (h : .started old ∈ a.history steps) :
    old.run.value < (a.afterAll steps).scheduler.nextRunId := by
  induction steps generalizing a with
  | nil => cases h
  | cons step rest ih =>
    rcases List.mem_append.1 h with h | h
    · have hlt := ((effect_after a step).of_started h).2.2
      exact Nat.lt_of_lt_of_le hlt (nextRunId_le_afterAll (a.after step) rest)
    · exact ih h

section

variable {tasks : List ScheduledTask} {last : Nat}

theorem dispatches_of_startsDue {seen : List Happening} (ha : Scheduler.Ascending a.scheduler.tasks)
    (hseen : ∀ old, .started old ∈ seen → old.run.value < a.scheduler.nextRunId)
    (h : Scheduler.StartsDue now a.scheduler.nextRunId a.scheduler.tasks tasks jobs last) :
    Dispatches seen a now jobs { a with
      scheduler := { a.scheduler with tasks := tasks, nextRunId := last }
      flights := a.flights ++ jobs.map (Flight.mk · .announcing) } where
  due id := by
    refine (h.exists_job_iff ha).trans (exists_congr fun task => and_congr_right fun _ => ?_)
    rw [ScheduledTask.isDue_iff, ScheduledTask.isWaiting, decide_eq_true_eq]
  ids_ascending := h.ids_ascending ha
  runs_ascending := h.runs_ascending
  fresh job hjob old hold := Nat.lt_of_lt_of_le (hseen old hold) (h.mem_jobs hjob).2.1
  started job hjob := ⟨(h.mem_jobs hjob).1, h.started_of_mem ha hjob⟩
  kept id hno := h.kept_of_no_job ha hno
  others := rfl

theorem settledAt_of_startsDue (ha : a.Sound) (hleap : a.NoLeap) (hintact : a.scheduler.intact = true)
    (hnow : now.isLeap = false)
    (hover : ∀ task ∈ a.scheduler.tasks, task.isDue now = true →
      ¬ (task.spec.timing.ranAt now).Overflows now)
    (hidle : ∀ task ∈ a.scheduler.tasks, task.status ≠ .running)
    (h : Scheduler.StartsDue now a.scheduler.nextRunId a.scheduler.tasks tasks jobs last) :
    SettledAt { a with
      scheduler := { a.scheduler with tasks := tasks, nextRunId := last }
      flights := a.flights ++ jobs.map (Flight.mk · .announcing) } now where
  sound := (Effect.dispatched hintact h).sound ha
  noLeap := (Effect.dispatched hintact h).noLeap ha.ascending hleap hnow
  intact := hintact
  tasks t ht := by
    rcases h.mem_after ht with ⟨task, htask, hdue, run, rfl⟩ | ⟨htask, hskip⟩
    · exact ScheduledTask.settledAt_started (hover task htask hdue) run
    · exact ⟨hskip, fun hrunning => absurd hrunning (hidle t htask)⟩

end

/-- Outside of leap seconds, and unless the dates run out, a dispatch starts exactly the due tasks,
and what is due next comes later.  If no run was in progress before it, then while the clock stands
and no task is added or removed, every further dispatch starts nothing and changes nothing, whatever
has become of the runs. -/
theorem dispatch_starts_due_once (registry : MethodRegistry) (resultsPerTask maxConcurrent : Nat)
    (before : List Step) (now : Instant) (hleap : ∀ step ∈ before, step.NoLeap)
    (hnow : now.isLeap = false) :
    let start := empty registry (.empty resultsPerTask) maxConcurrent
    let a := start.afterAll before
    a.scheduler.intact = true →
    (∀ task ∈ a.scheduler.tasks, task.isDue now = true →
      ¬ (task.spec.timing.ranAt now).Overflows now) →
    ∃ jobs b, a.dispatch now = .ok (jobs, b) ∧ Dispatches (start.history before) a now jobs b ∧
      (∃ due, b.scheduler.nextDue = .ok due ∧ ∀ t, due = some t → now < t) ∧
      ((∀ task ∈ a.scheduler.tasks, task.status ≠ .running) →
        ∀ later : List Step, (∀ step ∈ later, step.StaysAt now) →
          (b.afterAll later).dispatch now = .ok ([], b.afterAll later)) := by
  intro start a hintact hover
  have hempty := empty_sound registry resultsPerTask maxConcurrent
  have hsound : a.Sound := hempty.afterAll before
  have hcalm : a.NoLeap := noLeap_afterAll hempty (fun _ hmem => by cases hmem) hleap
  obtain ⟨⟨tasks, jobs, last⟩, hdue⟩ := Scheduler.exists_dispatchDue hover a.scheduler.nextRunId
  have hstarts := Scheduler.startsDue_of_dispatchDue hdue
  have hscheduler : a.scheduler.dispatch now =
      .ok (jobs, { a.scheduler with tasks := tasks, nextRunId := last }) := by
    rw [Scheduler.dispatch, Scheduler.checkIntact_of_intact hintact, hdue]
    rfl
  refine ⟨jobs, _, by rw [dispatch, hscheduler]; rfl,
    dispatches_of_startsDue hsound.ascending (fun old hold => run_lt_of_started hold) hstarts,
    Scheduler.nextDue_of_not_due hintact fun t ht => hstarts.not_due_after ht, ?_⟩
  intro hidle later hlater
  have hsettled := settledAt_of_startsDue hsound hcalm hintact hnow hover hidle hstarts
  exact (hsettled.afterAll hnow hlater).dispatch

/-- Two tasks are added that are due at once. -/
def bothDue : List Step := [.enqueue everySecond .epoch, .enqueue minutely .epoch]

/-- Both runs end at once, one with a report and the other without; in between there is another
dispatch. -/
def bothRun : List Step :=
  [.announce minutelyJob, .grantPermit minutelyJob, .begin minutelyJob,
    .finish minutelyJob (.error .cancelled)] ++ everySecondRun ⟨⟨7⟩, ⟨2⟩, .epoch⟩ ++
    [.complete minutelyJob .epoch]

/-- Each task is started once, and not again when the runs have ended. -/
theorem bothDue_start_once : ∃ jobs b,
    ((empty .builtIn (.empty 100) 2).afterAll bothDue).dispatch .epoch = .ok (jobs, b) ∧
      jobs = [minutelyJob, ⟨⟨7⟩, ⟨2⟩, .epoch⟩] ∧
      ((b.afterAll bothRun).scheduler.tasks.map (·.status) = [.idle, .finished]) ∧
      (b.afterAll bothRun).dispatch .epoch = .ok ([], b.afterAll bothRun) := by
  have hleap : ∀ step ∈ bothDue, step.NoLeap := by
    intro step hstep
    have htiming (p : Periodic) (hstart : p.window.start = none) :
        (Schedule.fresh (.periodic p)).NoLeap :=
      ⟨fun s hs => absurd (hstart.symm.trans hs) (by simp), fun w hw => by cases hw⟩
    simp only [bothDue, List.mem_cons, List.not_mem_nil, or_false] at hstep
    rcases hstep with rfl | rfl
    · exact ⟨htiming _ rfl, rfl⟩
    · exact ⟨htiming _ rfl, rfl⟩
  have hperiodic : ∀ name ∈ ((empty .builtIn (.empty 100) 2).afterAll bothDue).scheduler.tasks.map
      (·.spec.timing.schedule.typeName), name = "periodic" := by
    decide +kernel
  have hidle : ∀ status ∈ ((empty .builtIn (.empty 100) 2).afterAll bothDue).scheduler.tasks.map
      (·.status), status ≠ .running := by
    decide +kernel
  have hstays : ∀ step ∈ bothRun, step.StaysAt .epoch := by
    intro step hstep
    simp only [bothRun, everySecondRun, List.cons_append, List.nil_append, List.mem_cons,
      List.not_mem_nil, or_false] at hstep
    rcases hstep with rfl | rfl | rfl | rfl | rfl | rfl | rfl | rfl | rfl | rfl | rfl | rfl
    all_goals first | rfl | trivial
  have hover : ∀ task ∈ ((empty .builtIn (.empty 100) 2).afterAll bothDue).scheduler.tasks,
      task.isDue .epoch = true → ¬ (task.spec.timing.ranAt .epoch).Overflows .epoch := by
    rintro task htask - ⟨c, hc, -⟩
    have hname := hperiodic _ (List.mem_map_of_mem htask)
    rw [show task.spec.timing.schedule = .calendar c from hc] at hname
    simp [Schedule.typeName] at hname
  obtain ⟨jobs, b, hdispatch, -, -, hsettled⟩ :=
    dispatch_starts_due_once .builtIn 100 2 bothDue .epoch hleap rfl (by decide +kernel) hover
  refine ⟨jobs, b, hdispatch, ?_, ?_,
    hsettled (fun task htask => hidle _ (List.mem_map_of_mem htask)) bothRun hstays⟩
  · have hjobs : (((empty .builtIn (.empty 100) 2).afterAll bothDue).dispatch .epoch).map Prod.fst =
        .ok [minutelyJob, ⟨⟨7⟩, ⟨2⟩, .epoch⟩] := by
      decide +kernel
    rw [hdispatch] at hjobs
    exact Except.ok.inj hjobs
  · have hstatus : (((empty .builtIn (.empty 100) 2).afterAll bothDue).dispatch .epoch).map
        (fun result => (result.2.afterAll bothRun).scheduler.tasks.map (·.status)) =
          .ok [.idle, .finished] := by
      decide +kernel
    rw [hdispatch] at hstatus
    simp only [Except.map, Except.ok.injEq] at hstatus
    exact hstatus

end Agent

end ProbeAgent
