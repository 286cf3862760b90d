import ProbeAgent.Proofs.Schedule.Timing
import ProbeAgent.Proofs.Scheduler.Soundness

/-!
# The time between the runs of a task

Outside of leap seconds two runs of a task start more than a second apart, however the clock moves:
a task that waits has a next run that its timing offers (`ScheduledTask.Timely`), and a timing
offers no run within a second of the last one.  Reports carry the times at which runs started, so
the times of a task's reports increase too.
-/

namespace ProbeAgent

/-- The step brings no date-time along that lies in a leap second. -/
def Step.NoLeap : Step → Prop
  | enqueue spec now => spec.timing.NoLeap ∧ now.isLeap = false
  | dispatch now | complete _ now => now.isLeap = false
  | remove _ | stop _ | shutDown | announce _ | grantPermit _ | begin _ | cancel _ | finish _ _
  | report _ | abandon _ | forget _ => True

/-- The second time is more than a second after the first; neither lies in a leap second. -/
structure Instant.Apart (d e : Instant) : Prop where
  fst : d.isLeap = false
  snd : e.isLeap = false
  lt_since : nanosPerSecond < e.since d

theorem Instant.Apart.trans {d e f : Instant} (hde : d.Apart e) (hef : e.Apart f) : d.Apart f := by
  refine ⟨hde.fst, hef.snd, ?_⟩
  have hadd := Instant.since_add_since hef.snd hde.snd hde.fst
  have h₁ := hde.lt_since
  have h₂ := hef.lt_since
  simp only [nanosPerSecond] at h₁ h₂ ⊢
  omega

theorem Instant.Apart.lt {d e : Instant} (h : d.Apart e) : d < e := by
  refine Instant.lt_of_since_pos h.snd h.fst ?_
  have h₁ := h.lt_since
  simp only [nanosPerSecond] at h₁
  omega

namespace ScheduledTask

/-- No date-time of the task lies in a leap second. -/
structure NoLeap (task : ScheduledTask) : Prop where
  timing : task.spec.timing.NoLeap
  nextRun : ∀ next, task.nextRun = some next → next.isLeap = false

theorem apart_of_isDue {task : ScheduledTask} (htimely : task.Timely) (hleap : task.NoLeap)
    {now w : Instant} (hnow : now.isLeap = false) (hdue : task.isDue now = true)
    (hlast : task.spec.timing.lastRun = some w) : w.Apart now := by
  obtain ⟨hwaiting, next, hnext, hle⟩ := isDue_iff.1 hdue
  obtain ⟨reference, href⟩ := htimely hwaiting next hnext
  have hw := hleap.timing.lastRun w hlast
  have hlt := Timing.lt_since_of_nextRunFrom hleap.timing hlast href
  -- The next run was offered more than a second after the last one, and has passed.
  have hsince := Instant.since_le_since (hleap.nextRun next hnext) hnow hw hle
  exact ⟨hw, hnow, Int.lt_of_lt_of_le hlt hsince⟩

theorem lastRun_of_isDue {task : ScheduledTask} (htimely : task.Timely) {now : Instant}
    (hdue : task.isDue now = true) (himmediate : task.spec.timing.schedule = .immediate) :
    task.spec.timing.lastRun = none := by
  cases hlast : task.spec.timing.lastRun with
  | none => rfl
  | some w =>
    obtain ⟨hwaiting, next, hnext, -⟩ := isDue_iff.1 hdue
    obtain ⟨reference, href⟩ := htimely hwaiting next hnext
    rw [Timing.nextRunFrom_immediate_of_ran himmediate hlast] at href
    cases href

/-- When the run started that is in progress. -/
def underway? (task : ScheduledTask) : Option Instant :=
  if task.status = .running then task.spec.timing.lastRun else none

@[simp] theorem underway?_fresh (spec : TaskSpec) (definition : Definition)
    (next : Option Instant) : (fresh spec definition next).underway? = none := rfl

@[simp] theorem underway?_started (task : ScheduledTask) (now : Instant) (run : RunId) :
    (task.started now run).underway? = some now := rfl

@[simp] theorem underway?_ended (task : ScheduledTask) (outcome : Scheduler.Outcome)
    (error : Option String) (next : Option Instant) :
    (task.ended (Scheduler.conclusion outcome).1 error next).underway? = none :=
  if_neg (Scheduler.conclusion_ne_running outcome)

end ScheduledTask

namespace Agent

variable {a b : Agent} {step : Step} {seen : List Happening} {id : TaskId}

/-- No date-time of the tasks lies in a leap second. -/
def NoLeap (a : Agent) : Prop := ∀ task ∈ a.scheduler.tasks, task.NoLeap

/-- When the task last started, if it is there and has. -/
def lastRun? (a : Agent) (id : TaskId) : Option Instant :=
  (a.scheduler.find? id).bind (·.spec.timing.lastRun)

theorem Effect.noLeap (h : Effect a step seen b) (ha : Scheduler.Ascending a.scheduler.tasks)
    (hleap : a.NoLeap) (hstep : step.NoLeap) : b.NoLeap := by
  intro t ht
  obtain ⟨starts, hfate⟩ := h.fate_of_mem ha ht
  generalize hfound : a.scheduler.find? t.id = found at hfate
  cases hfate with
  | kept => exact hleap t (List.mem_of_find?_eq_some hfound)
  | enqueued heq hid hnext =>
    rw [heq] at hstep
    refine ⟨hstep.1, fun next hdue => ?_⟩
    exact Timing.isLeap_of_nextRunFrom hstep.1 hstep.2 (hnext.trans (congrArg Except.ok hdue))
  | started heq hdue hge hlt =>
    rw [heq] at hstep
    have hold := hleap _ (List.mem_of_find?_eq_some hfound)
    exact ⟨hold.timing.ranAt hstep, hold.nextRun⟩
  | ended heq hid hstage hrun hover hnext =>
    rw [heq] at hstep
    have hold := hleap _ (List.mem_of_find?_eq_some hfound)
    refine ⟨hold.timing, fun next hdue => ?_⟩
    exact Timing.isLeap_of_nextRunFrom hold.timing hstep
      (Scheduler.nextAfter_eq_some (hnext.trans (congrArg Except.ok hdue)))

/-! ## Starts -/

-- The last run of the task before the step stands for all its earlier ones.
theorem Effect.starts_apart (h : Effect a step seen b) (ha : a.Sound) (hleap : a.NoLeap)
    (hstep : step.NoLeap) (hkept : step ≠ .remove id) {later : List Instant}
    (hlater : ((b.lastRun? id).toList ++ later).Pairwise Instant.Apart) :
    ((a.lastRun? id).toList ++ (startTimes id seen ++ later)).Pairwise Instant.Apart := by
  have hfate := h.fate ha.ascending id
  rw [lastRun?] at hlater ⊢
  generalize startTimes id seen = starts at hfate ⊢
  generalize hafter : b.scheduler.find? id = after at hfate hlater
  generalize hfound : a.scheduler.find? id = found at hfate ⊢
  cases hfate with
  | kept => exact hlater
  | enqueued heq hid hnext => exact (List.pairwise_append.1 hlater).2.1
  | removed heq => exact absurd heq hkept
  | @started task now run heq hdue hge hlt =>
    -- The start is itself the last run that the later ones are apart from.
    rw [heq] at hstep
    have hmem := List.mem_of_find?_eq_some hfound
    have hnow : (now :: later).Pairwise Instant.Apart := hlater
    cases hlast : task.spec.timing.lastRun with
    | none =>
      rw [Option.bind_some, hlast]
      exact hnow
    | some w =>
      have hapart := ScheduledTask.apart_of_isDue (ha.timely task hmem) (hleap task hmem) hstep hdue
        hlast
      rw [Option.bind_some, hlast]
      refine List.pairwise_cons.2 ⟨fun d hd => ?_, hnow⟩
      rcases List.mem_cons.1 hd with rfl | hd
      · exact hapart
      · exact hapart.trans ((List.pairwise_cons.1 hnow).1 d hd)
  | ended heq hid hstage hrun hover hnext => exact hlater

theorem starts_apart (ha : a.Sound) (hleap : a.NoLeap) {steps : List Step}
    (hsteps : ∀ step ∈ steps, step.NoLeap) (hkept : Step.remove id ∉ steps) :
    ((a.lastRun? id).toList ++ startTimes id (a.history steps)).Pairwise Instant.Apart := by
  -- The steps are taken from the front, so the last run before them varies.
  induction steps generalizing a with
  | nil =>
    rw [history, startTimes, List.filterMap_nil, List.append_nil]
    cases a.lastRun? id with
    | none => exact .nil
    | some w => exact List.pairwise_singleton _ _
  | cons step rest ih =>
    have heffect := effect_after a step
    have hstep := hsteps step List.mem_cons_self
    rw [history, startTimes_append]
    exact heffect.starts_apart ha hleap hstep (fun heq => hkept (heq ▸ List.mem_cons_self))
      (ih (heffect.sound ha) (heffect.noLeap ha.ascending hleap hstep)
        (fun s hs => hsteps s (.tail _ hs)) fun hmem => hkept (.tail _ hmem))

/-! ## Immediate tasks -/

theorem Effect.schedule_kept (h : Effect a step seen b) (ha : Scheduler.Ascending a.scheduler.tasks)
    (hkept : step ≠ .remove id) {task : ScheduledTask} (hfind : a.scheduler.find? id = some task) :
    ∃ t, b.scheduler.find? id = some t ∧
      t.spec.timing.schedule = task.spec.timing.schedule := by
  have hfate := h.fate ha id
  rw [hfind] at hfate
  generalize startTimes id seen = starts at hfate
  generalize b.scheduler.find? id = after at hfate
  cases hfate with
  | kept => exact ⟨task, rfl, rfl⟩
  | removed heq => exact absurd heq hkept
  | started heq hdue hge hlt => exact ⟨_, rfl, rfl⟩
  | ended heq hid hstage hrun hover hnext => exact ⟨_, rfl, rfl⟩

theorem schedule_kept (ha : a.Sound) {steps : List Step} (hkept : Step.remove id ∉ steps)
    {task : ScheduledTask} (hfind : a.scheduler.find? id = some task) :
    ∃ t, (a.afterAll steps).scheduler.find? id = some t ∧
      t.spec.timing.schedule = task.spec.timing.schedule := by
  induction steps generalizing a task with
  | nil => exact ⟨task, hfind, rfl⟩
  | cons step rest ih =>
    have heffect := effect_after a step
    obtain ⟨next, hnext, hsame⟩ := heffect.schedule_kept ha.ascending
      (fun heq => hkept (heq ▸ List.mem_cons_self)) hfind
    obtain ⟨t, ht, hschedule⟩ := ih (heffect.sound ha) (fun hmem => hkept (.tail _ hmem)) hnext
    exact ⟨t, ht, hschedule.trans hsame⟩

-- The task is asked about after the steps: it need not have been there before them.
theorem starts_immediate (ha : a.Sound) {steps : List Step} (hkept : Step.remove id ∉ steps)
    {task : ScheduledTask} (hend : (a.afterAll steps).scheduler.find? id = some task)
    (himmediate : task.spec.timing.schedule = .immediate) :
    ((a.lastRun? id).toList ++ startTimes id (a.history steps)).length ≤ 1 := by
  induction steps generalizing a with
  | nil =>
    rw [history, startTimes, List.filterMap_nil, List.append_nil]
    exact Option.length_toList_le
  | cons step rest ih =>
    have heffect := effect_after a step
    have hrest : Step.remove id ∉ rest := fun hmem => hkept (.tail _ hmem)
    have hlater := ih (heffect.sound ha) hrest hend
    have hfate := heffect.fate ha.ascending id
    rw [history, startTimes_append]
    rw [lastRun?] at hlater ⊢
    generalize startTimes id (a.shows step) = starts at hfate ⊢
    generalize hafter : (a.after step).scheduler.find? id = after at hfate hlater
    generalize hfound : a.scheduler.find? id = found at hfate ⊢
    cases hfate with
    | kept => exact hlater
    | enqueued heq hid hnext =>
      rw [List.length_append] at hlater
      exact Nat.le_trans (Nat.le_add_left _ _) hlater
    | removed heq => exact absurd List.mem_cons_self (heq ▸ hkept)
    | @started old now run heq hdue hge hlt =>
      -- The schedule of the task that starts here is the one it has in the end.
      obtain ⟨t, ht, hschedule⟩ := schedule_kept (heffect.sound ha) hrest hafter
      obtain rfl : task = t := Option.some.inj (hend.symm.trans ht)
      have hlast := ScheduledTask.lastRun_of_isDue
        (ha.timely old (List.mem_of_find?_eq_some hfound)) hdue (hschedule.symm.trans himmediate)
      rw [Option.bind_some, hlast]
      exact hlater
    | ended heq hid hstage hrun hover hnext => exact hlater

/-! ## Reports -/

/-- When the run of a task started that is in progress; none if the tasks are lost. -/
def underway? (a : Agent) (id : TaskId) : Option Instant :=
  if a.scheduler.intact then (a.scheduler.find? id).bind (·.underway?) else none

theorem Effect.underway_sublist (h : Effect a step seen b) (ha : a.Sound) :
    ((b.underway? id).toList).Sublist ((a.underway? id).toList ++ startTimes id seen) := by
  rw [underway?]
  split
  · rename_i hintact
    have hfate := h.fate ha.ascending id
    rw [underway?, if_pos (h.intact hintact)]
    generalize startTimes id seen = starts at hfate ⊢
    generalize b.scheduler.find? id = after at hfate ⊢
    generalize a.scheduler.find? id = found at hfate ⊢
    cases hfate with
    | kept => exact List.sublist_append_left _ _
    | enqueued heq hid hnext =>
      rw [Option.bind_some, ScheduledTask.underway?_fresh]
      exact List.nil_sublist _
    | removed heq => exact List.nil_sublist _
    | started heq hdue hge hlt =>
      rw [Option.bind_some, ScheduledTask.underway?_started]
      exact List.sublist_append_right _ _
    | ended heq hid hstage hrun hover hnext =>
      rw [Option.bind_some, ScheduledTask.underway?_ended]
      exact List.nil_sublist _
  · exact List.nil_sublist _

theorem reportTimes_recorded (ha : a.Sound) (job : Job) (result : Option RunResult) (id : TaskId) :
    reportTimes id ((a.scheduler.record job result).2.toList.map .recorded) =
      if result.isSome ∧ job.taskId = id then [job.startedAt] else [] := by
  cases result with
  | none => rfl
  | some result =>
    obtain ⟨hid, htime⟩ := ReportStore.record_event ha.results job.taskId job.startedAt result
    rw [Scheduler.record_some, Option.toList_some, List.map_singleton, reportTimes,
      List.filterMap_cons, Happening.reportOf?, hid, htime]
    by_cases hjob : job.taskId = id
    · rw [if_pos hjob, if_pos ⟨rfl, hjob⟩]
      rfl
    · rw [if_neg hjob, if_neg fun h => hjob h.2]
      rfl

theorem underway?_of_current (ha : a.Sound) (hintact : a.scheduler.intact = true) {job : Job}
    {task : ScheduledTask} {outcome : Scheduler.Outcome}
    (hstage : a.stage? job = some (.measured outcome))
    (hcurrent : a.scheduler.current? job = some task) :
    a.underway? job.taskId = some job.startedAt := by
  have hflight := (stage?_eq_some_iff ha.inOrder).1 hstage
  -- A measured run is pending, so its task is running and last ran at its start.
  obtain ⟨hrunning, hlast⟩ := ha.pending _ hflight rfl task hcurrent
  have hfind := (Scheduler.current?_eq_some_iff.1 hcurrent).1
  rw [underway?, if_pos hintact, hfind, Option.bind_some, ScheduledTask.underway?, if_pos hrunning]
  exact hlast

-- A run that is reported is no longer under way, so it is not reported twice.
theorem Effect.reports (h : Effect a step seen b) (ha : a.Sound) (id : TaskId) :
    reportTimes id seen = [] ∨ ∃ w, reportTimes id seen = [w] ∧ a.underway? id = some w ∧
      b.underway? id = none := by
  cases h with
  | dispatched hintact hdue => exact .inl (reportTimes_started _ _)
  | moved job told h => exact .inl (reportTimes_told _ _)
  | @endedLast job now outcome task hintact hstage hcurrent =>
    rw [reportTimes_recorded ha]
    split
    · rename_i hrecorded
      rw [← hrecorded.2]
      exact .inr ⟨_, rfl, underway?_of_current ha hintact hstage hcurrent, rfl⟩
    · exact .inl rfl
  | @ended job now outcome task next hintact hstage hcurrent hnext =>
    rw [reportTimes_recorded ha]
    split
    · rename_i hrecorded
      rw [← hrecorded.2]
      refine .inr ⟨_, rfl, underway?_of_current ha hintact hstage hcurrent, ?_⟩
      have hfind := (Scheduler.current?_eq_some_iff.1 hcurrent).1
      rw [underway?]
      split
      · refine (congrArg (Option.bind · _) (Scheduler.find?_ended hfind _ _ next)).trans ?_
        rw [Option.bind_some, ScheduledTask.underway?_ended]
      · rfl
    · exact .inl rfl
  | lost | signalled | forgotten | enqueued | removed => exact .inl rfl

theorem Effect.reports_sublist (h : Effect a step seen b) (ha : a.Sound) (id : TaskId) :
    (reportTimes id seen ++ (b.underway? id).toList).Sublist
      ((a.underway? id).toList ++ startTimes id seen) := by
  rcases h.reports ha id with hnone | ⟨w, hreport, hbefore, hafter⟩
  · rw [hnone]
    exact h.underway_sublist ha
  · rw [hreport, hbefore, hafter]
    exact List.sublist_append_left _ _

theorem reports_sublist (ha : a.Sound) (steps : List Step) (id : TaskId) :
    (reportTimes id (a.history steps) ++ ((a.afterAll steps).underway? id).toList).Sublist
      ((a.underway? id).toList ++ startTimes id (a.history steps)) := by
  -- The run under way links the steps: started before, to be reported afterwards.
  induction steps generalizing a with
  | nil => exact List.sublist_append_left _ _
  | cons step rest ih =>
    have heffect := effect_after a step
    rw [history, startTimes_append, reportTimes_append, List.append_assoc]
    refine ((ih (heffect.sound ha)).append_left (reportTimes id (a.shows step))).trans ?_
    rw [← List.append_assoc, ← List.append_assoc]
    exact (heffect.reports_sublist ha id).append_right _

/-! ## The theorem -/

theorem noLeap_afterAll (ha : a.Sound) (hleap : a.NoLeap) {steps : List Step}
    (hsteps : ∀ step ∈ steps, step.NoLeap) : (a.afterAll steps).NoLeap := by
  induction steps generalizing a with
  | nil => exact hleap
  | cons step rest ih =>
    have heffect := effect_after a step
    exact ih (heffect.sound ha)
      (heffect.noLeap ha.ascending hleap (hsteps step List.mem_cons_self))
      fun s hs => hsteps s (.tail _ hs)

theorem underway?_sublist_lastRun? (a : Agent) (id : TaskId) :
    (a.underway? id).toList.Sublist (a.lastRun? id).toList := by
  rw [underway?, lastRun?]
  split
  · cases a.scheduler.find? id with
    | none => exact List.Sublist.refl _
    | some task =>
      rw [Option.bind_some, Option.bind_some, ScheduledTask.underway?]
      split
      · exact List.Sublist.refl _
      · exact List.nil_sublist _
  · exact List.nil_sublist _

/-- While a task is not removed its runs start more than a second apart, in any order of steps and
with any clock.  It starts at most once if it is immediate, and the times of its reports increase.
-/
theorem starts_spaced_and_reports_increase (registry : MethodRegistry)
    (resultsPerTask maxConcurrent : Nat) (before segment : List Step) (id : TaskId)
    (hleap : ∀ step ∈ before ++ segment, step.NoLeap) (hkept : Step.remove id ∉ segment) :
    let a := (empty registry (.empty resultsPerTask) maxConcurrent).afterAll before
    (startTimes id (a.history segment)).Pairwise (fun d e => nanosPerSecond < e.since d) ∧
      (∀ mid, mid <+: segment → ∀ task, (a.afterAll mid).scheduler.find? id = some task →
        task.spec.timing.schedule = .immediate →
        (startTimes id (a.history segment)).length ≤ 1) ∧
      (reportTimes id (a.history segment)).Pairwise (· < ·) := by
  intro a
  have hempty := empty_sound registry resultsPerTask maxConcurrent
  have hsound : a.Sound := hempty.afterAll before
  have hnoLeap : a.NoLeap := noLeap_afterAll hempty (fun _ hmem => by cases hmem)
    fun step hstep => hleap step (List.mem_append_left _ hstep)
  have hapart := starts_apart hsound hnoLeap
    (fun step hstep => hleap step (List.mem_append_right _ hstep)) hkept
  refine ⟨(List.pairwise_append.1 hapart).2.1.imp fun h => h.lt_since, ?_, ?_⟩
  · rintro mid ⟨rest, rfl⟩ task hfind himmediate
    obtain ⟨t, ht, hschedule⟩ := schedule_kept (hsound.afterAll mid)
      (fun hmem => hkept (List.mem_append_right mid hmem)) hfind
    have hend : (a.afterAll (mid ++ rest)).scheduler.find? id = some t := by
      rw [afterAll, List.foldl_append]
      exact ht
    have hlength := starts_immediate hsound hkept hend (hschedule.trans himmediate)
    rw [List.length_append] at hlength
    exact Nat.le_trans (Nat.le_add_left _ _) hlength
  · -- The reports are some of the starts, in their order, and those are apart.
    have hreports := (List.sublist_append_left _ _).trans (reports_sublist hsound segment id)
    have hstarts := hreports.trans ((underway?_sublist_lastRun? a id).append_right _)
    exact (hapart.sublist hstarts).imp Instant.Apart.lt

/-- Probes to a host every second. -/
def everySecond : TaskSpec where
  id := ⟨7⟩
  method := "udpping"
  options := .obj [("host", .str "192.0.2.1")]
  timing := Schedule.fresh (.periodic ⟨⟨none, none⟩, 1000⟩)

/-- The run `job` of the task starts and ends at once, and has no probes to report. -/
def everySecondRun (job : Job) : List Step :=
  [.dispatch job.startedAt, .announce job, .grantPermit job, .begin job,
    .finish job (.ok (some (.ping (.ofProbes [])))), .complete job job.startedAt, .report job]

/-- The task is looked at in every second, and the clock goes back once in between. -/
def everySecondCourse : List Step :=
  [.enqueue everySecond .epoch] ++ everySecondRun ⟨⟨7⟩, ⟨1⟩, .epoch⟩ ++
    [.dispatch ⟨1, 0, by decide, by decide⟩, .dispatch ⟨-5, 0, by decide, by decide⟩] ++
    everySecondRun ⟨⟨7⟩, ⟨2⟩, ⟨2, 0, by decide, by decide⟩⟩

/-- A second after its run the task is not started: that would be too soon. -/
theorem everySecond_every_other :
    let log := (empty .builtIn (.empty 100) 2).history everySecondCourse
    startTimes ⟨7⟩ log = [.epoch, ⟨2, 0, by decide, by decide⟩] ∧
      reportTimes ⟨7⟩ log = [.epoch, ⟨2, 0, by decide, by decide⟩] ∧
      (startTimes ⟨7⟩ log).Pairwise (fun d e => nanosPerSecond < e.since d) ∧
      (reportTimes ⟨7⟩ log).Pairwise (· < ·) := by
  have hleap : ∀ step ∈ [] ++ everySecondCourse, step.NoLeap := by
    have htiming : everySecond.timing.NoLeap :=
      ⟨fun s hs => (by cases hs), fun w hw => (by cases hw)⟩
    intro step hstep
    simp only [everySecondCourse, everySecondRun, List.nil_append, List.cons_append,
      List.mem_cons, List.not_mem_nil, or_false] at hstep
    rcases hstep with rfl | rfl | rfl | rfl | rfl | rfl | rfl | rfl | rfl | rfl | rfl | rfl |
      rfl | rfl | rfl | rfl | rfl
    · exact ⟨htiming, rfl⟩
    all_goals trivial
  have hkept : Step.remove ⟨7⟩ ∉ everySecondCourse := by
    simp [everySecondCourse, everySecondRun]
  obtain ⟨hstarts, -, hreports⟩ :=
    starts_spaced_and_reports_increase .builtIn 100 2 [] everySecondCourse ⟨7⟩ hleap hkept
  exact ⟨by decide +kernel, by decide +kernel, hstarts, hreports⟩

end Agent

end ProbeAgent
