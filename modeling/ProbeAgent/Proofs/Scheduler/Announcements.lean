import ProbeAgent.Proofs.Scheduler.Completion

/-!
# The statuses that are told

A run tells that it has started, and how it has ended, in steps of their own after those that changed
the status of its task.  In between it has something left to tell (`Agent.toTell`).  Unless a run
completes, what is told by a step is what is not left to tell after it (`telling_append_toTell`), and
runs tell of their own tasks only.
-/

namespace ProbeAgent

/-- The status that an event tells of a task. -/
def SchedulerEvent.status? (id : TaskId) : SchedulerEvent → Option TaskStatus
  | statusChanged other status => if other = id then some status else none
  | error _ _ => none

/-- The status of a task that was told, if that is what happened. -/
def Happening.status? (id : TaskId) : Happening → Option TaskStatus
  | told event => event.status? id
  | started _ | recorded _ => none

/-- The statuses that were told of a task, in order. -/
def statusesTold (id : TaskId) (seen : List Happening) : List TaskStatus :=
  seen.filterMap (·.status? id)

namespace Agent

variable {a : Agent} {step : Step} {job : Job} {id : TaskId} {told : List (Job × TaskStatus)}

/-- The statuses of a task that a run is still to tell, as far as they are known. -/
def toTell (id : TaskId) (job : Job) : Option Stage → List TaskStatus
  | some .announcing => [SchedulerEvent.statusChanged job.taskId .running].filterMap (·.status? id)
  | some (.reporting events) => events.filterMap (·.status? id)
  | _ => []

/-- The status of a task that a step tells, with the run that tells it. -/
def telling (a : Agent) (id : TaskId) : Step → List (Job × TaskStatus)
  | .announce job => ((a.announce job).1.toList.filterMap (·.status? id)).map (job, ·)
  | .report job => ((a.report job).1.toList.filterMap (·.status? id)).map (job, ·)
  | _ => []

def tellings (a : Agent) (id : TaskId) : List Step → List (Job × TaskStatus)
  | [] => []
  | step :: rest => a.telling id step ++ (a.after step).tellings id rest

/-- What one run has told. -/
def toldBy (job : Job) (told : List (Job × TaskStatus)) : List TaskStatus :=
  (told.filter (·.1 = job)).map (·.2)

/-! ## What is told and what is left -/

theorem toldBy_append (job : Job) (told new : List (Job × TaskStatus)) :
    toldBy job (told ++ new) = toldBy job told ++ toldBy job new := by
  rw [toldBy, List.filter_append, List.map_append, ← toldBy, ← toldBy]

theorem toldBy_map (job other : Job) (statuses : List TaskStatus) :
    toldBy job (statuses.map (other, ·)) = if other = job then statuses else [] := by
  unfold toldBy
  rw [List.filter_map]
  by_cases hother : other = job
  · simp [Function.comp_def, hother]
  · simp [Function.comp_def, hother]

theorem toldBy_eq_nil (h : ∀ t ∈ told, t.1 ≠ job) : toldBy job told = [] := by
  have hnone : told.filter (·.1 = job) = [] :=
    List.filter_eq_nil_iff.2 fun t ht => by simpa using h t ht
  rw [toldBy, hnone, List.map_nil]

theorem telling_map_status (a : Agent) (id : TaskId) (step : Step) :
    (a.telling id step).map (·.2) = statusesTold id (a.shows step) := by
  have hevents (other : Job) (events : List SchedulerEvent) :
      ((events.filterMap (·.status? id)).map (other, ·)).map (·.2) =
        statusesTold id (events.map .told) := by
    rw [statusesTold, List.filterMap_map, List.map_map]
    exact List.map_id _
  cases step with
  | announce other => exact hevents other _
  | report other => exact hevents other _
  | dispatch now =>
    rw [shows]
    split <;> simp [telling, statusesTold, Happening.status?]
  | complete other now => simp [telling, shows, statusesTold, Happening.status?]
  | _ => rfl

theorem tellings_map_status (a : Agent) (id : TaskId) (steps : List Step) :
    (a.tellings id steps).map (·.2) = statusesTold id (a.history steps) := by
  induction steps generalizing a with
  | nil => rfl
  | cons step rest ih =>
    rw [tellings, history, List.map_append, telling_map_status, ih, statusesTold, statusesTold,
      statusesTold, List.filterMap_append]

theorem toTell_of_advance {old : Stage} {stage : Option Stage} (h : Advance a job step old stage)
    (hannounce : step ≠ .announce job) (hreport : step ≠ .report job)
    (hcomplete : ∀ now, step ≠ .complete job now)
    (habandon : step = .abandon job → toTell id job (some old) = []) :
    toTell id job stage = toTell id job (some old) := by
  cases h with
  | announced => exact absurd rfl hannounce
  | told | gone => exact absurd rfl hreport
  | completed => exact absurd rfl (hcomplete _)
  | abandoned => exact (habandon rfl).symm
  | admitted | dropped | skipped | begun | finished => rfl

theorem toldBy_telling_eq_nil (hannounce : step ≠ .announce job) (hreport : step ≠ .report job) :
    toldBy job (a.telling id step) = [] := by
  cases step with
  | announce other =>
    rw [telling, toldBy_map, if_neg fun h => hannounce (by rw [h])]
  | report other =>
    rw [telling, toldBy_map, if_neg fun h => hreport (by rw [h])]
  | _ => rfl

theorem stage?_setStage_self {stage : Stage} (h : a.stage? job = some stage) (new : Stage) :
    (a.setStage job new).stage? job = some new := by
  rw [stage?_setStage, if_pos rfl, h, Option.map_some]

theorem stage?_land_self (a : Agent) (job : Job) : (a.land job).stage? job = none := by
  rw [stage?_land, if_pos rfl]

theorem announce_append_toTell (a : Agent) (id : TaskId) (job : Job) :
    toldBy job (a.telling id (.announce job)) ++
        toTell id job ((a.after (.announce job)).stage? job) =
      toTell id job (a.stage? job) := by
  rw [telling, toldBy_map, if_pos rfl, after, announce]
  split
  · rename_i hstage
    simp only [stage?_setStage_self hstage, hstage]
    exact List.append_nil _
  · rfl

theorem report_append_toTell (a : Agent) (id : TaskId) (job : Job) :
    toldBy job (a.telling id (.report job)) ++ toTell id job ((a.after (.report job)).stage? job) =
      toTell id job (a.stage? job) := by
  rw [telling, toldBy_map, if_pos rfl, after, report]
  split
  · rename_i hstage
    simp only [stage?_land_self, hstage]
    rfl
  · rename_i event rest hstage
    simp only [stage?_setStage_self hstage, hstage]
    exact List.filterMap_append.symm
  · rfl

-- What was told and what is left is what was left before, unless the run completed.
theorem telling_append_toTell (hrun : job.run.value < a.scheduler.nextRunId)
    (hcomplete : ∀ now, step ≠ .complete job now)
    (habandon : step = .abandon job → toTell id job (a.stage? job) = []) :
    toldBy job (a.telling id step) ++ toTell id job ((a.after step).stage? job) =
      toTell id job (a.stage? job) := by
  by_cases hannounce : step = .announce job
  · rw [hannounce]
    exact announce_append_toTell a id job
  by_cases hreport : step = .report job
  · rw [hreport]
    exact report_append_toTell a id job
  rw [toldBy_telling_eq_nil hannounce hreport, List.nil_append]
  rcases stage?_after hrun step with hsame | ⟨old, hold, hadvance⟩
  · rw [hsame]
  · rw [hold] at habandon ⊢
    exact toTell_of_advance hadvance hannounce hreport hcomplete habandon

theorem exists_of_mem_telling {t : Job × TaskStatus} (h : t ∈ a.telling id step) :
    toTell id t.1 (a.stage? t.1) ≠ [] := by
  have hmem {other : Job} {statuses : List TaskStatus} (h : t ∈ statuses.map (other, ·)) :
      t.1 = other ∧ statuses ≠ [] := by
    obtain ⟨status, hstatus, rfl⟩ := List.mem_map.1 h
    exact ⟨rfl, List.ne_nil_of_mem hstatus⟩
  cases step with
  | announce other =>
    obtain ⟨hjob, hne⟩ := hmem h
    rw [hjob, ← announce_append_toTell, telling, toldBy_map, if_pos rfl]
    exact List.append_ne_nil_of_left_ne_nil hne _
  | report other =>
    obtain ⟨hjob, hne⟩ := hmem h
    rw [hjob, ← report_append_toTell, telling, toldBy_map, if_pos rfl]
    exact List.append_ne_nil_of_left_ne_nil hne _
  | _ => cases h

theorem mem_of_toTell_ne_nil (ha : a.Sound) (h : toTell id job (a.stage? job) ≠ []) :
    ∃ f ∈ a.flights, f.job = job ∧ toTell id f.job (some f.stage) ≠ [] := by
  cases hstage : a.stage? job with
  | none =>
    rw [hstage] at h
    exact absurd rfl h
  | some stage =>
    rw [hstage] at h
    exact ⟨_, (stage?_eq_some_iff ha.inOrder).1 hstage, rfl, h⟩

/-! ## Whose task it is -/

theorem toTell_announcing (id : TaskId) (job : Job) :
    toTell id job (some .announcing) = if job.taskId = id then [.running] else [] := by
  by_cases hid : job.taskId = id
  · simp [toTell, SchedulerEvent.status?, hid]
  · simp [toTell, SchedulerEvent.status?, hid]

theorem filterMap_endEvents (id other : TaskId) (status : TaskStatus) (error : Option String) :
    (Scheduler.endEvents other status error).filterMap (·.status? id) =
      if other = id then [status] else [] := by
  by_cases hid : other = id
  · cases error <;> simp [Scheduler.endEvents, SchedulerEvent.status?, hid]
  · cases error <;> simp [Scheduler.endEvents, SchedulerEvent.status?, hid]

theorem eq_of_ite_ne_nil {α β : Type} [DecidableEq α] {x y : α} {l : List β}
    (h : (if x = y then l else []) ≠ []) : x = y := by
  by_cases heq : x = y
  · exact heq
  · rw [if_neg heq] at h
    exact absurd rfl h

theorem taskId_of_completion {s : Scheduler} {outcome : Scheduler.Outcome} {now : Instant}
    (h : (s.complete job outcome now).events.filterMap (·.status? id) ≠ []) : job.taskId = id := by
  by_cases hstale : s.intact = true → s.current? job = none
  · rw [Scheduler.complete_of_stale hstale] at h
    exact absurd rfl h
  · obtain ⟨hintact, hsome⟩ := Classical.not_imp.1 hstale
    obtain ⟨task, hcurrent⟩ := Option.ne_none_iff_exists'.1 hsome
    rcases Scheduler.complete_of_current hintact hcurrent outcome now with
      hcomplete | ⟨next, -, hcomplete⟩
    · rw [hcomplete] at h
      exact absurd rfl h
    · rw [hcomplete, filterMap_endEvents] at h
      exact eq_of_ite_ne_nil h

/-- Runs tell only of their own task. -/
def TellsOwn (a : Agent) (id : TaskId) : Prop :=
  ∀ f ∈ a.flights, toTell id f.job (some f.stage) ≠ [] → f.job.taskId = id

theorem TellsOwn.after (h : a.TellsOwn id) (hin : a.InOrder) (step : Step) :
    (a.after step).TellsOwn id := by
  intro f hf hleft
  have hturn := turn_after a step
  generalize (a.after step).flights = flights at hturn hf
  cases hturn with
  | same => exact h f hf hleft
  | dispatched hnew =>
    rcases List.mem_append.1 hf with hf | hf
    · exact h f hf hleft
    · obtain ⟨other, hother, rfl⟩ := List.mem_map.1 hf
      rw [toTell_announcing] at hleft
      exact eq_of_ite_ne_nil hleft
  | landed hstage hadvance => exact h f (List.mem_filter.1 hf).1 hleft
  | @moved step other old stage hstage hadvance =>
    rcases mem_setStage.1 hf with ⟨hf, -⟩ | ⟨g, hg, hjob, rfl⟩
    · exact h f hf hleft
    · have hold : ⟨other, old⟩ ∈ a.flights := (stage?_eq_some_iff hin).1 hstage
      cases hadvance with
      | completed => exact taskId_of_completion hleft
      | @told event rest =>
        refine h ⟨other, .reporting (event :: rest)⟩ hold fun hnone => hleft ?_
        have hboth : (event :: rest).filterMap (·.status? id) = [] := hnone
        exact List.filterMap_eq_nil_iff.2 fun e he =>
          List.filterMap_eq_nil_iff.1 hboth e (.tail _ he)
      | announced | admitted | skipped | begun | finished => exact absurd rfl hleft

end Agent

end ProbeAgent
