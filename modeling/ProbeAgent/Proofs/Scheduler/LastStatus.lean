import ProbeAgent.Proofs.Scheduler.Announcements

/-!
# The last status that is told

The latest run of a task has told, or is still to tell, the course of the task from its start to its
status now (`Leads.balance`).  So once nothing is left to tell, its last word is the status of the
task.  But nothing keeps a run from starting, and from telling so, while an older one has its end left
to tell, and then the last word of all can be that of the older run (`minutelyOvertaken_told`).
-/

namespace ProbeAgent

/-- What the latest run of a task has to tell of it, from its start to its status now. -/
def ScheduledTask.course (task : ScheduledTask) : List TaskStatus :=
  if task.status = .running then [.running] else [.running, task.status]

namespace Agent

variable {a b : Agent} {step : Step} {seen : List Happening} {job : Job} {id : TaskId}
  {task : ScheduledTask} {told new : List (Job × TaskStatus)} {orderly : Prop}

/-- No run has anything left to tell of a task. -/
def Quiet (a : Agent) (id : TaskId) : Prop :=
  ∀ f ∈ a.flights, toTell id f.job (some f.stage) = []

/-- No run breaks off that has something left to tell of a task. -/
def TellsAll (a : Agent) (id : TaskId) : List Step → Prop
  | [] => True
  | step :: rest =>
    (∀ job, step = .abandon job → toTell id job (a.stage? job) = []) ∧ (a.after step).TellsAll id rest

/-- Runs are started only when nothing is left to tell of a task. -/
def StartsQuiet (a : Agent) (id : TaskId) : List Step → Prop
  | [] => True
  | step :: rest => (∀ now, step = .dispatch now → a.Quiet id) ∧ (a.after step).StartsQuiet id rest

/-! ## The latest run -/

/-- The latest run of a task has told and is still to tell the course of the task.  Others that tell
of the task are older; if runs start only when all is told, they have told all before it started. -/
structure Leads (orderly : Prop) (a : Agent) (id : TaskId) (told : List (Job × TaskStatus))
    (task : ScheduledTask) (job : Job) : Prop where
  taskId : job.taskId = id
  run : job.run = task.latest
  balance : toldBy job told ++ toTell id job (a.stage? job) = task.course
  told_older : ∀ t ∈ told, t.1 = job ∨ t.1.run.value < job.run.value
  flights_older : ∀ f ∈ a.flights, f.job.taskId = id → f.job = job ∨ f.job.run.value < job.run.value
  silent : orderly → ∀ f ∈ a.flights, f.job = job ∨ toTell id f.job (some f.stage) = []
  told_last : orderly → ∃ before after, told = before ++ after ∧ (∀ t ∈ before, t.1 ≠ job) ∧
    ∀ t ∈ after, t.1 = job

structure Heard (orderly : Prop) (a : Agent) (id : TaskId) (told : List (Job × TaskStatus)) :
    Prop where
  own : a.TellsOwn id
  told_lt : ∀ t ∈ told, t.1.run.value < a.scheduler.nextRunId
  latest : ∀ task, a.scheduler.find? id = some task → 0 < task.latest.value →
    ∃ job, Leads orderly a id told task job

/-- What a step tells is what is not left to tell after it any more. -/
structure Conserves (a b : Agent) (id : TaskId) (new : List (Job × TaskStatus)) : Prop where
  toTell_eq : ∀ job : Job, job.run.value < a.scheduler.nextRunId →
    toldBy job new ++ toTell id job (b.stage? job) = toTell id job (a.stage? job)
  flights : ∀ f ∈ b.flights, f.job.taskId = id → ∃ g ∈ a.flights, g.job = f.job
  new : ∀ t ∈ new, toTell id t.1 (a.stage? t.1) ≠ []

theorem Leads.conserved (h : Leads orderly a id told task job) (ha : a.Sound) (hb : b.Sound)
    (hown : a.TellsOwn id) (hownb : b.TellsOwn id) (hconserve : Conserves a b id new)
    (hrun : job.run.value < a.scheduler.nextRunId) :
    Leads orderly b id (told ++ new) task job where
  taskId := h.taskId
  run := h.run
  balance := by
    rw [toldBy_append, List.append_assoc, hconserve.toTell_eq job hrun]
    exact h.balance
  told_older t ht := by
    rcases List.mem_append.1 ht with ht | ht
    · exact h.told_older t ht
    · obtain ⟨f, hf, hjob, hleft⟩ := mem_of_toTell_ne_nil ha (hconserve.new t ht)
      rw [← hjob]
      exact h.flights_older f hf (hown f hf hleft)
  flights_older f hf hid := by
    obtain ⟨g, hg, hjob⟩ := hconserve.flights f hf hid
    rw [← hjob] at hid ⊢
    exact h.flights_older g hg hid
  silent horderly f hf := by
    by_cases hleft : toTell id f.job (some f.stage) = []
    · exact .inr hleft
    · obtain ⟨g, hg, hjob⟩ := hconserve.flights f hf (hownb f hf hleft)
      rcases h.silent horderly g hg with hlead | hsilent
      · exact .inl (hjob.symm.trans hlead)
      · have hold := (stage?_eq_some_iff ha.inOrder).2 hg
        have hnew := (stage?_eq_some_iff hb.inOrder).2 hf
        have heq := hconserve.toTell_eq g.job (ha.flight_run g hg).2
        rw [hold, hsilent, hjob, hnew] at heq
        exact .inr (List.append_eq_nil_iff.1 heq).2
  told_last horderly := by
    obtain ⟨before, after, htold, hbefore, hafter⟩ := h.told_last horderly
    refine ⟨before, after ++ new, by rw [htold, List.append_assoc], hbefore, fun t ht => ?_⟩
    rcases List.mem_append.1 ht with ht | ht
    · exact hafter t ht
    · obtain ⟨f, hf, hjob, hleft⟩ := mem_of_toTell_ne_nil ha (hconserve.new t ht)
      rw [← hjob]
      exact (h.silent horderly f hf).resolve_right hleft

theorem Heard.told_lt_append (h : Heard orderly a id told) (ha : a.Sound)
    (hnext : a.scheduler.nextRunId ≤ b.scheduler.nextRunId)
    (hnew : ∀ t ∈ new, toTell id t.1 (a.stage? t.1) ≠ []) :
    ∀ t ∈ told ++ new, t.1.run.value < b.scheduler.nextRunId := by
  intro t ht
  refine Nat.lt_of_lt_of_le ?_ hnext
  rcases List.mem_append.1 ht with ht | ht
  · exact h.told_lt t ht
  · obtain ⟨f, hf, hjob, -⟩ := mem_of_toTell_ne_nil ha (hnew t ht)
    rw [← hjob]
    exact (ha.flight_run f hf).2

theorem Leads.run_lt (h : Leads orderly a id told task job) (ha : a.Sound)
    (hfind : a.scheduler.find? id = some task) : job.run.value < a.scheduler.nextRunId := by
  rw [h.run]
  exact ha.latest_lt task (List.mem_of_find?_eq_some hfind)

/-- A step that tells what was left to tell, and starts no run of the task and ends none. -/
theorem Heard.conserved (h : Heard orderly a id told) (ha : a.Sound) (heffect : Effect a step seen b)
    (hown : b.TellsOwn id) (hconserve : Conserves a b id new)
    (hfind : ∀ task, b.scheduler.find? id = some task → 0 < task.latest.value →
      a.scheduler.find? id = some task) : Heard orderly b id (told ++ new) where
  own := hown
  told_lt := h.told_lt_append ha heffect.nextRunId_le hconserve.new
  latest task htask hpos := by
    have hbefore := hfind task htask hpos
    obtain ⟨job, hleads⟩ := h.latest task hbefore hpos
    exact ⟨job, hleads.conserved ha (heffect.sound ha) h.own hown hconserve (hleads.run_lt ha hbefore)⟩

-- Only a dispatch brings new runs.
theorem exists_flight_before (hstep : ∀ now, step ≠ .dispatch now) {f : Flight}
    (hf : f ∈ (a.after step).flights) : ∃ g ∈ a.flights, g.job = f.job := by
  have hturn := turn_after a step
  generalize (a.after step).flights = flights at hturn hf
  cases hturn with
  | same => exact ⟨f, hf, rfl⟩
  | dispatched hnew => exact absurd rfl (hstep _)
  | landed hstage hadvance => exact ⟨f, (List.mem_filter.1 hf).1, rfl⟩
  | moved hstage hadvance =>
    rcases mem_setStage.1 hf with ⟨hf, -⟩ | ⟨g, hg, hjob, rfl⟩
    · exact ⟨f, hf, rfl⟩
    · exact ⟨g, hg, hjob⟩

/-! ### Dispatch -/

theorem started_course (task : ScheduledTask) (now : Instant) (run : RunId) :
    (task.started now run).course = [.running] :=
  rfl

theorem mem_jobs_of_mem_new {jobs : List Job} {f : Flight}
    (hf : f ∈ jobs.map (Flight.mk · .announcing)) (hid : f.job.taskId = id) :
    f.job ∈ jobs.filter (·.taskId = id) := by
  obtain ⟨other, hmem, rfl⟩ := List.mem_map.1 hf
  exact List.mem_filter.2 ⟨hmem, decide_eq_true hid⟩

/-- A run that starts has told nothing, and is older than no other. -/
theorem Heard.leads_started (h : Heard orderly a id told) (ha : a.Sound) (hb : b.Sound)
    (hquiet : orderly → a.Quiet id) {now : Instant} {jobs : List Job}
    (hflights : b.flights = a.flights ++ jobs.map (Flight.mk · .announcing)) {run : Nat}
    (hrun : a.scheduler.nextRunId ≤ run)
    (hjobs : jobs.filter (·.taskId = id) = [⟨id, ⟨run⟩, now⟩]) (task : ScheduledTask) :
    Leads orderly b id told (task.started now ⟨run⟩) ⟨id, ⟨run⟩, now⟩ := by
  have hother : ∀ t ∈ told, t.1 ≠ ⟨id, ⟨run⟩, now⟩ := by
    intro t ht heq
    have hlt := h.told_lt t ht
    rw [heq] at hlt
    exact absurd hlt (Nat.not_lt.2 hrun)
  have hfilter : (⟨id, ⟨run⟩, now⟩ : Job) ∈ jobs.filter (·.taskId = id) := by
    rw [hjobs]
    exact List.mem_cons_self
  have hstage : b.stage? ⟨id, ⟨run⟩, now⟩ = some .announcing := by
    rw [stage?_eq_some_iff hb.inOrder, hflights]
    exact List.mem_append_right _ (List.mem_map_of_mem (List.mem_filter.1 hfilter).1)
  have hnew : ∀ f ∈ jobs.map (Flight.mk · .announcing), f.job.taskId = id →
      f.job = ⟨id, ⟨run⟩, now⟩ := by
    intro f hf hid
    have hmem := mem_jobs_of_mem_new hf hid
    rw [hjobs] at hmem
    exact List.mem_singleton.1 hmem
  refine ⟨rfl, rfl, ?_, ?_, ?_, ?_, ?_⟩
  · rw [toldBy_eq_nil hother, hstage, toTell_announcing, if_pos rfl, started_course]
    rfl
  · exact fun t ht => .inr (Nat.lt_of_lt_of_le (h.told_lt t ht) hrun)
  · intro f hf hid
    rw [hflights] at hf
    rcases List.mem_append.1 hf with hf | hf
    · exact .inr (Nat.lt_of_lt_of_le (ha.flight_run f hf).2 hrun)
    · exact .inl (hnew f hf hid)
  · intro horderly f hf
    rw [hflights] at hf
    rcases List.mem_append.1 hf with hf | hf
    · exact .inr (hquiet horderly f hf)
    · by_cases hid : f.job.taskId = id
      · exact .inl (hnew f hf hid)
      · obtain ⟨other, -, rfl⟩ := List.mem_map.1 hf
        exact .inr ((toTell_announcing id other).trans (if_neg hid))
  · exact fun _ => ⟨told, [], (List.append_nil _).symm, hother, fun t ht => by cases ht⟩

theorem after_dispatch_of_ok {now : Instant} {jobs : List Job} {s : Scheduler}
    (h : a.scheduler.dispatch now = .ok (jobs, s)) :
    a.after (.dispatch now) =
      { a with scheduler := s, flights := a.flights ++ jobs.map (Flight.mk · .announcing) } := by
  rw [after, tryDispatch, dispatch, h]
  rfl

theorem after_dispatch_of_error {now : Instant} {e : DateOverflow}
    (h : a.scheduler.dispatch now = .error e) : a.after (.dispatch now) = a.loseTasks := by
  rw [after, tryDispatch, dispatch, h]
  rfl

/-- A dispatch that starts no run of the task. -/
theorem Heard.dispatched_others (h : Heard orderly a id told) (ha : a.Sound) {now : Instant}
    (hflights : ∀ f ∈ (a.after (.dispatch now)).flights, f.job.taskId = id →
      ∃ g ∈ a.flights, g.job = f.job)
    (hfind : ∀ task, (a.after (.dispatch now)).scheduler.find? id = some task →
      a.scheduler.find? id = some task) :
    Heard orderly (a.after (.dispatch now)) id (told ++ a.telling id (.dispatch now)) := by
  refine h.conserved ha (effect_after a _) (h.own.after ha.inOrder _) ⟨?_, hflights, ?_⟩
    fun task htask _ => hfind task htask
  · exact fun job hjob => telling_append_toTell hjob (fun _ h => by cases h) (fun h => by cases h)
  · exact fun t ht => by cases ht

theorem Heard.dispatched (h : Heard orderly a id told) (ha : a.Sound)
    (hquiet : orderly → a.Quiet id) (now : Instant) :
    Heard orderly (a.after (.dispatch now)) id (told ++ a.telling id (.dispatch now)) := by
  cases hdispatch : a.scheduler.dispatch now with
  | error e =>
    have hlost := after_dispatch_of_error hdispatch
    refine h.dispatched_others ha (fun f hf _ => ?_) fun task htask => ?_
    · rw [hlost] at hf
      exact ⟨f, hf, rfl⟩
    · rw [hlost] at htask
      exact htask
  | ok result =>
    obtain ⟨jobs, s⟩ := result
    have hafter := after_dispatch_of_ok hdispatch
    obtain ⟨-, tasks, next, hdue, rfl⟩ := Scheduler.dispatch_eq_ok hdispatch
    have hfind : (a.after (.dispatch now)).scheduler.find? id = tasks.find? (·.id = id) := by
      rw [hafter]
      rfl
    have hflights : (a.after (.dispatch now)).flights =
        a.flights ++ jobs.map (Flight.mk · .announcing) := by rw [hafter]
    have hnone (hjobs : jobs.filter (·.taskId = id) = []) :
        ∀ f ∈ (a.after (.dispatch now)).flights, f.job.taskId = id →
          ∃ g ∈ a.flights, g.job = f.job := by
      intro f hf hid
      rw [hflights] at hf
      rcases List.mem_append.1 hf with hf | hf
      · exact ⟨f, hf, rfl⟩
      · have hmem := mem_jobs_of_mem_new hf hid
        rw [hjobs] at hmem
        cases hmem
    cases hfound : a.scheduler.find? id with
    | none =>
      obtain ⟨hgone, hjobs⟩ := hdue.of_find?_eq_none hfound
      refine h.dispatched_others ha (hnone hjobs) fun task htask => ?_
      rw [hfind, hgone] at htask
      cases htask
    | some task =>
      rcases hdue.of_find?_eq_some ha.ascending hfound with ⟨-, run, hge, hlt, hstarted, hjobs⟩ |
        ⟨hkept, hjobs⟩
      · have heffect := effect_after a (.dispatch now)
        refine ⟨h.own.after ha.inOrder _,
          h.told_lt_append ha heffect.nextRunId_le (fun t ht => by cases ht), ?_⟩
        intro t ht _
        rw [hfind, hstarted] at ht
        cases ht
        rw [show a.telling id (.dispatch now) = [] from rfl, List.append_nil]
        exact ⟨_, h.leads_started ha (heffect.sound ha) hquiet hflights hge hjobs task⟩
      · refine h.dispatched_others ha (hnone hjobs) fun t ht => ?_
        rw [hfind, hkept] at ht
        exact hfound.trans ht

/-! ### Completion -/

theorem ended_course (task : ScheduledTask) (outcome : Scheduler.Outcome)
    (next : Option Instant) :
    (task.ended (Scheduler.conclusion outcome).1 (Scheduler.conclusion outcome).2 next).course =
      [.running, (Scheduler.conclusion outcome).1] :=
  if_neg (Scheduler.conclusion_ne_running outcome)

theorem running_course (h : task.status = .running) : task.course = [.running] :=
  if_pos h

-- A completion that leaves nothing to tell changes no stage in which something is left to tell.
theorem conserves_complete {now : Instant}
    (h : ∀ outcome, a.stage? job = some (.measured outcome) →
      (a.scheduler.complete job outcome now).events.filterMap (·.status? id) = []) :
    Conserves a (a.after (.complete job now)) id [] where
  toTell_eq other hother := by
    rcases stage?_after hother (.complete job now) with hsame | ⟨old, hold, hadvance⟩
    · rw [hsame]
      rfl
    · rw [hold]
      generalize (a.after (.complete job now)).stage? other = stage at hadvance
      cases hadvance with
      | completed => exact h _ hold
  flights f hf _ := exists_flight_before (fun _ h => by cases h) hf
  new t ht := by cases ht

/-- A completion leaves nothing to tell of a task and does not change it, or it leaves its new status
to tell. -/
theorem completion_cases (ha : a.Sound) {outcome : Scheduler.Outcome}
    (hstage : a.stage? job = some (.measured outcome)) (id : TaskId) (now : Instant) :
    ((a.scheduler.complete job outcome now).events.filterMap (·.status? id) = [] ∧
      (a.after (.complete job now)).scheduler.find? id = a.scheduler.find? id) ∨
    (job.taskId = id ∧
      (a.scheduler.complete job outcome now).events.filterMap (·.status? id) =
        [(Scheduler.conclusion outcome).1] ∧
      ∃ task next, a.scheduler.current? job = some task ∧
        (a.after (.complete job now)).scheduler.find? id =
          some (task.ended (Scheduler.conclusion outcome).1 (Scheduler.conclusion outcome).2 next)) := by
  by_cases hid : job.taskId = id
  · subst hid
    rw [after, complete_of_measured hstage]
    by_cases hstale : a.scheduler.intact = true → a.scheduler.current? job = none
    · rw [Scheduler.complete_of_stale hstale]
      exact .inl ⟨rfl, rfl⟩
    · obtain ⟨hintact, hsome⟩ := Classical.not_imp.1 hstale
      obtain ⟨task, hcurrent⟩ := Option.ne_none_iff_exists'.1 hsome
      rcases Scheduler.complete_of_current hintact hcurrent outcome now with
        hcomplete | ⟨next, -, hcomplete⟩
      · rw [hcomplete]
        exact .inl ⟨rfl, Scheduler.record_find? _ _ _ _⟩
      · rw [hcomplete, filterMap_endEvents, if_pos rfl]
        exact .inr ⟨rfl, rfl, task, next, hcurrent,
          Scheduler.find?_ended (Scheduler.current?_eq_some_iff.1 hcurrent).1 _ _ _⟩
  · left
    refine ⟨?_, (complete_sameBut ha job now).tasks id fun h => hid h.symm⟩
    by_cases hnone : (a.scheduler.complete job outcome now).events.filterMap (·.status? id) = []
    · exact hnone
    · exact absurd (taskId_of_completion hnone) hid

/-- The run that completes is the one that leads. -/
theorem Leads.ended (h : Leads orderly a id told task job)
    {outcome : Scheduler.Outcome} {now : Instant}
    (hstage : a.stage? job = some (.measured outcome)) (hstatus : task.status = .running)
    (hevents : (a.scheduler.complete job outcome now).events.filterMap (·.status? id) =
      [(Scheduler.conclusion outcome).1]) (next : Option Instant) :
    Leads orderly (a.after (.complete job now)) id told
      (task.ended (Scheduler.conclusion outcome).1 (Scheduler.conclusion outcome).2 next) job where
  taskId := h.taskId
  run := h.run
  balance := by
    have hbalance := h.balance
    rw [hstage, running_course hstatus, show toTell id job (some (.measured outcome)) = [] from rfl,
      List.append_nil] at hbalance
    have hafter : (a.after (.complete job now)).stage? job =
        some (.reporting (a.scheduler.complete job outcome now).events) := by
      rw [after, complete_of_measured hstage]
      exact stage?_setStage_self (a := a.withScheduler _) hstage _
    rw [hafter, toTell, hevents, hbalance, ended_course]
    rfl
  told_older := h.told_older
  flights_older f hf hid := by
    obtain ⟨g, hg, hjob⟩ := exists_flight_before (fun _ h => by cases h) hf
    rw [← hjob] at hid ⊢
    exact h.flights_older g hg hid
  silent horderly f hf := by
    rw [after, complete_of_measured hstage] at hf
    rcases mem_setStage.1 hf with ⟨hf, -⟩ | ⟨g, -, -, rfl⟩
    · exact h.silent horderly f hf
    · exact .inl rfl
  told_last := h.told_last

theorem Heard.completed (h : Heard orderly a id told) (ha : a.Sound) (job : Job) (now : Instant) :
    Heard orderly (a.after (.complete job now)) id (told ++ a.telling id (.complete job now)) := by
  have heffect := effect_after a (.complete job now)
  have hown := h.own.after ha.inOrder (.complete job now)
  by_cases hmeasured : ∃ outcome, a.stage? job = some (.measured outcome)
  · obtain ⟨outcome, hstage⟩ := hmeasured
    rcases completion_cases ha hstage id now with ⟨hevents, hfind⟩ |
      ⟨hid, hevents, task, next, hcurrent, hfind⟩
    · refine h.conserved ha heffect hown (conserves_complete fun other hother => ?_) fun t ht _ => ?_
      · rw [hstage] at hother
        cases hother
        exact hevents
      · rw [hfind] at ht
        exact ht
    · obtain ⟨hfound, hlatest⟩ := Scheduler.current?_eq_some_iff.1 hcurrent
      have hflight := (stage?_eq_some_iff ha.inOrder).1 hstage
      have hstatus := (ha.pending _ hflight rfl task hcurrent).1
      refine ⟨hown, h.told_lt_append ha heffect.nextRunId_le (fun t ht => by cases ht), ?_⟩
      intro t ht hpos
      rw [hfind] at ht
      cases ht
      rw [hid] at hfound
      obtain ⟨lead, hleads⟩ := h.latest task hfound hpos
      -- Another run of this task in flight would be older, but the number is that of the latest.
      have hlead : job = lead := by
        rcases hleads.flights_older _ hflight hid with heq | hlt
        · exact heq
        · rw [hleads.run, hlatest] at hlt
          exact absurd hlt (Nat.lt_irrefl _)
      subst hlead
      rw [show a.telling id (.complete job now) = [] from rfl, List.append_nil]
      exact ⟨job, hleads.ended hstage hstatus hevents next⟩
  · have hafter : a.after (.complete job now) = a := by
      rw [after, complete_of_not_measured fun outcome h => hmeasured ⟨outcome, h⟩]
    refine h.conserved ha heffect hown (conserves_complete fun outcome hstage => ?_) fun t ht _ => ?_
    · exact absurd ⟨outcome, hstage⟩ hmeasured
    · rw [hafter] at ht
      exact ht

/-! ### Any steps -/

theorem conserves_after (step : Step) (hcomplete : ∀ job now, step ≠ .complete job now)
    (hdispatch : ∀ now, step ≠ .dispatch now)
    (habandon : ∀ job, step = .abandon job → toTell id job (a.stage? job) = []) :
    Conserves a (a.after step) id (a.telling id step) where
  toTell_eq job hjob := telling_append_toTell hjob (hcomplete job) (habandon job)
  flights _ hf _ := exists_flight_before hdispatch hf
  new _ ht := exists_of_mem_telling ht

-- A task that has had a run has been there before, unless a run of it starts or ends.
theorem find?_before (ha : a.Sound) (hcomplete : ∀ job now, step ≠ .complete job now)
    (hdispatch : ∀ now, step ≠ .dispatch now) (hfind : (a.after step).scheduler.find? id = some task)
    (hpos : 0 < task.latest.value) : a.scheduler.find? id = some task := by
  have hfate := (effect_after a step).fate ha.ascending id
  rw [hfind] at hfate
  generalize startTimes id (a.shows step) = starts at hfate
  generalize hfound : a.scheduler.find? id = found at hfate
  cases hfate with
  | kept => rfl
  | enqueued hstep hid hnext => exact absurd hpos (Nat.lt_irrefl 0)
  | started hstep hdue hge hlt => exact absurd hstep (hdispatch _)
  | ended hstep hid hstage hrun hover hnext => exact absurd hstep (hcomplete _ _)

theorem Heard.after (h : Heard orderly a id told) (ha : a.Sound) (step : Step)
    (habandon : ∀ job, step = .abandon job → toTell id job (a.stage? job) = [])
    (hquiet : orderly → ∀ now, step = .dispatch now → a.Quiet id) :
    Heard orderly (a.after step) id (told ++ a.telling id step) := by
  by_cases hcomplete : ∃ job now, step = .complete job now
  · obtain ⟨job, now, rfl⟩ := hcomplete
    exact h.completed ha job now
  by_cases hdispatch : ∃ now, step = .dispatch now
  · obtain ⟨now, rfl⟩ := hdispatch
    exact h.dispatched ha (fun horderly => hquiet horderly now rfl) now
  have hcomplete : ∀ job now, step ≠ .complete job now := fun job now heq =>
    hcomplete ⟨job, now, heq⟩
  have hdispatch : ∀ now, step ≠ .dispatch now := fun now heq => hdispatch ⟨now, heq⟩
  exact h.conserved ha (effect_after a step) (h.own.after ha.inOrder step)
    (conserves_after step hcomplete hdispatch habandon) fun _ htask hpos =>
      find?_before ha hcomplete hdispatch htask hpos

theorem Heard.afterAll (h : Heard orderly a id told) (ha : a.Sound) {steps : List Step}
    (hwhole : a.TellsAll id steps) (hquiet : orderly → a.StartsQuiet id steps) :
    Heard orderly (a.afterAll steps) id (told ++ a.tellings id steps) := by
  induction steps generalizing a told with
  | nil =>
    rw [tellings, List.append_nil]
    exact h
  | cons step rest ih =>
    obtain ⟨habandon, hrest⟩ := hwhole
    rw [tellings, ← List.append_assoc]
    exact ih (h.after ha step habandon fun horderly => (hquiet horderly).1)
      ((effect_after a step).sound ha) hrest fun horderly => (hquiet horderly).2

theorem empty_heard (orderly : Prop) (registry : MethodRegistry) (results : ReportStore)
    (maxConcurrent : Nat) (id : TaskId) :
    Heard orderly (empty registry results maxConcurrent) id [] where
  own _ hf := by cases hf
  told_lt t ht := by cases ht
  latest task htask := by cases htask

/-! ## The theorem -/

theorem tellsAll_of_no_abandon {steps : List Step} (h : ∀ job, .abandon job ∉ steps) :
    a.TellsAll id steps := by
  induction steps generalizing a with
  | nil => trivial
  | cons step rest ih =>
    refine ⟨fun job hstep => ?_, ih fun job hmem => h job (.tail _ hmem)⟩
    rw [hstep] at h
    exact absurd List.mem_cons_self (h job)

theorem startsQuiet_of_no_dispatch {steps : List Step} (h : ∀ now, .dispatch now ∉ steps) :
    a.StartsQuiet id steps := by
  induction steps generalizing a with
  | nil => trivial
  | cons step rest ih =>
    refine ⟨fun now hstep => ?_, ih fun now hmem => h now (.tail _ hmem)⟩
    rw [hstep] at h
    exact absurd List.mem_cons_self (h now)

theorem course_eq (task : ScheduledTask) : ∃ front, task.course = front ++ [task.status] := by
  by_cases hrunning : task.status = .running
  · exact ⟨[], by rw [running_course hrunning, hrunning]; rfl⟩
  · exact ⟨[.running], if_neg hrunning⟩

/-- After the last that one run has told, only others have told something. -/
theorem exists_last_told {front : List TaskStatus} {status : TaskStatus}
    (h : toldBy job told = front ++ [status]) :
    ∃ before later, told = before ++ (job, status) :: later ∧ ∀ t ∈ later, t.1 ≠ job := by
  obtain ⟨first, last, hfilter, -, hlast⟩ := List.map_eq_append_iff.1 h
  obtain ⟨t, rest, rfl, hstatus, hrest⟩ := List.map_eq_cons_iff.1 hlast
  rw [List.map_eq_nil_iff] at hrest
  subst hrest
  obtain ⟨before, end_, rfl, -, hend⟩ := List.filter_eq_append_iff.1 hfilter
  obtain ⟨others, later, rfl, -, hjob, hlater⟩ := List.filter_eq_cons_iff.1 hend
  have hjob : t.1 = job := by simpa using hjob
  refine ⟨before ++ others, later, ?_, fun t ht => by simpa using List.filter_eq_nil_iff.1 hlater t ht⟩
  rw [List.append_assoc, ← hjob, ← hstatus]

theorem getLast?_eq_iff (before later : List TaskStatus) (status : TaskStatus) :
    (before ++ status :: later).getLast? = some status ↔
      ∀ last, later.getLast? = some last → last = status := by
  cases hlater : later.getLast? with
  | none => simp [List.getLast?_cons, hlater]
  | some last => simp [List.getLast?_cons, hlater]

/-- Once all is told of a task that has been started, the status that the task has is the last that
its latest run has told.  What was told after it was told by older runs, so the task has the last
status told unless such a run has told another one last; and that does not happen if runs are started
only when all is told of the task. -/
theorem last_told_of_quiet {registry : MethodRegistry} {resultsPerTask maxConcurrent : Nat}
    {steps : List Step} (hstart : a = empty registry (.empty resultsPerTask) maxConcurrent)
    (hwhole : a.TellsAll id steps) (hintact : (a.afterAll steps).scheduler.intact = true)
    (hfind : (a.afterAll steps).scheduler.find? id = some task) (hrun : 0 < task.latest.value)
    (hquiet : (a.afterAll steps).Quiet id) :
    (a.afterAll steps).scheduler.state? id = .ok (some task.state) ∧
      (∃ job before later, job.run = task.latest ∧
        a.tellings id steps = before ++ (job, task.status) :: later ∧
        (∀ t ∈ later, t.1.run.value < task.latest.value) ∧
        ((statusesTold id (a.history steps)).getLast? = some task.status ↔
          ∀ status, (later.map (·.2)).getLast? = some status → status = task.status)) ∧
      (a.StartsQuiet id steps →
        (statusesTold id (a.history steps)).getLast? = some task.status) := by
  have ha : a.Sound := hstart ▸ empty_sound registry resultsPerTask maxConcurrent
  have hnone : Heard (a.StartsQuiet id steps) a id [] :=
    hstart ▸ empty_heard _ registry (.empty resultsPerTask) maxConcurrent id
  have hheard := hnone.afterAll ha hwhole fun h => h
  rw [List.nil_append] at hheard
  obtain ⟨job, hleads⟩ := hheard.latest task hfind hrun
  obtain ⟨front, hcourse⟩ := course_eq task
  have htold : toldBy job (a.tellings id steps) = front ++ [task.status] := by
    have hleft : toTell id job ((a.afterAll steps).stage? job) = [] := by
      cases hstage : (a.afterAll steps).stage? job with
      | none => rfl
      | some stage => exact hquiet _ ((stage?_eq_some_iff (ha.afterAll steps).inOrder).1 hstage)
    have hbalance := hleads.balance
    rw [hleft, List.append_nil, hcourse] at hbalance
    exact hbalance
  rw [← tellings_map_status]
  refine ⟨?_, ?_, fun horderly => ?_⟩
  · rw [Scheduler.state?, Scheduler.checkIntact_of_intact hintact, hfind]
    rfl
  · obtain ⟨before, later, heq, hothers⟩ := exists_last_told htold
    refine ⟨job, before, later, hleads.run, heq, fun t ht => ?_, ?_⟩
    · have hmem : t ∈ a.tellings id steps := by
        rw [heq]
        exact List.mem_append_right _ (.tail _ ht)
      rw [← hleads.run]
      exact (hleads.told_older t hmem).resolve_left (hothers t ht)
    · rw [heq, List.map_append, List.map_cons]
      exact getLast?_eq_iff _ _ _
  · obtain ⟨before, after, heq, hbefore, hafter⟩ := hleads.told_last horderly
    have hall : after.filter (·.1 = job) = after :=
      List.filter_eq_self.2 fun t ht => by simpa using hafter t ht
    rw [heq, toldBy_append, toldBy_eq_nil hbefore, List.nil_append, toldBy, hall] at htold
    rw [heq, List.map_append, htold, ← List.append_assoc, List.getLast?_concat]

/-- The first run of a task, which has no probes to report, until all is told of it. -/
def minutelyCourse : List Step := [.enqueue minutely .epoch, .dispatch .epoch,
  .announce minutelyJob, .grantPermit minutelyJob, .begin minutelyJob,
  .finish minutelyJob (.ok (some (.ping (.ofProbes [])))), .complete minutelyJob .epoch,
  .report minutelyJob, .report minutelyJob]

theorem minutelyCourse_told :
    (empty .builtIn (.empty 100) 2).TellsAll ⟨6⟩ minutelyCourse ∧
      (empty .builtIn (.empty 100) 2).StartsQuiet ⟨6⟩ minutelyCourse ∧
      (∃ task, ((empty .builtIn (.empty 100) 2).afterAll minutelyCourse).scheduler.find? ⟨6⟩ =
        some task ∧ task.status = .finished) ∧
      (statusesTold ⟨6⟩ ((empty .builtIn (.empty 100) 2).history minutelyCourse)).getLast? =
        some .finished := by
  have hwhole : (empty .builtIn (.empty 100) 2).TellsAll ⟨6⟩ minutelyCourse :=
    tellsAll_of_no_abandon fun job => by simp [minutelyCourse]
  have horderly : (empty .builtIn (.empty 100) 2).StartsQuiet ⟨6⟩ minutelyCourse :=
    ⟨(fun _ h => by cases h), (fun _ _ f hf => by cases hf),
      startsQuiet_of_no_dispatch fun now => by simp⟩
  have hquiet : ((empty .builtIn (.empty 100) 2).afterAll minutelyCourse).Quiet ⟨6⟩ := by
    have hnone : ((empty .builtIn (.empty 100) 2).afterAll minutelyCourse).flights = [] := rfl
    rw [Quiet, hnone]
    exact fun f hf => by cases hf
  obtain ⟨task, hfind, hstatus, hrun⟩ : ∃ task,
      ((empty .builtIn (.empty 100) 2).afterAll minutelyCourse).scheduler.find? ⟨6⟩ = some task ∧
        task.status = .finished ∧ 0 < task.latest.value := ⟨_, rfl, rfl, Nat.one_pos⟩
  have htold := last_told_of_quiet rfl hwhole rfl hfind hrun hquiet
  refine ⟨hwhole, horderly, ⟨task, hfind, hstatus⟩, ?_⟩
  rw [← hstatus]
  exact htold.2.2 horderly

def aMinuteLater : Instant := ⟨60, 0, by decide, by decide⟩

/-- The second run of the task. -/
def minutelySecondJob : Job := ⟨⟨6⟩, ⟨2⟩, aMinuteLater⟩

/-- The second run starts, is stopped and tells so before the first one tells its end. -/
def minutelyOvertaken : List Step := [.enqueue minutely .epoch, .dispatch .epoch,
  .announce minutelyJob, .grantPermit minutelyJob, .begin minutelyJob,
  .finish minutelyJob (.ok (some (.ping (.ofProbes [])))), .complete minutelyJob .epoch,
  .dispatch aMinuteLater, .announce minutelySecondJob, .grantPermit minutelySecondJob,
  .begin minutelySecondJob, .stop ⟨6⟩, .finish minutelySecondJob (.error .cancelled),
  .complete minutelySecondJob aMinuteLater, .report minutelySecondJob, .report minutelySecondJob,
  .report minutelyJob, .report minutelyJob]

/-- No run is left and the task is idle, but the last that was told is that it has finished. -/
theorem minutelyOvertaken_told :
    let a := empty .builtIn (.empty 100) 2
    a.TellsAll ⟨6⟩ minutelyOvertaken ∧ (a.afterAll minutelyOvertaken).flights.length = 0 ∧
      (a.afterAll minutelyOvertaken).scheduler.intact = true ∧
      ((a.afterAll minutelyOvertaken).scheduler.find? ⟨6⟩).map (·.status) = some .idle ∧
      statusesTold ⟨6⟩ (a.history minutelyOvertaken) = [.running, .running, .idle, .finished] := by
  refine ⟨tellsAll_of_no_abandon fun job => ?_, ?_⟩
  · simp [minutelyOvertaken]
  · decide +kernel

/-- A probe to a host in two seconds of the last minute of every year. -/
def lastMinute : TaskSpec where
  id := ⟨1⟩
  method := "udpping"
  options := .obj [("host", .str "192.0.2.1"), ("count", .int 1)]
  timing := Schedule.fresh (.calendar { Calendar.everySecond with
    months := .ofList [12], daysOfMonth := .ofList [31], hours := .ofList [23],
    minutes := .ofList [59], seconds := .ofList [50, 53] })

-- A run that completes when its next one has no date leaves a report, and tells nobody that it ended.
example :
    let start : Instant := ⟨maxSecond - 9, 0, by decide, by decide⟩
    let job : Job := ⟨⟨1⟩, ⟨1⟩, start⟩
    let steps : List Step := [.enqueue lastMinute start, .dispatch start, .announce job,
      .grantPermit job, .begin job, .finish job (.ok (some (.ping (.ofProbes [])))),
      .complete job ⟨maxSecond, 500000000, by decide, by decide⟩, .report job]
    let a := empty .builtIn (.empty 100) 1
    (a.afterAll steps).flights.length = 0 ∧ reportTimes ⟨1⟩ (a.history steps) = [start] ∧
      statusesTold ⟨1⟩ (a.history steps) = [.running] := by
  decide +kernel

end Agent

end ProbeAgent
