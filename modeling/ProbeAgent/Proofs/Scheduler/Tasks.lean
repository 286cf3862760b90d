import ProbeAgent.Scheduler.Basic

/-!
# The tasks of a scheduler

The tasks stand in the order of their identities, so an identity names at most one of them.  What
the operations do to the list is said here by what they do to the task of one identity; a dispatch
starts the tasks that are due with consecutive run numbers (`StartsDue`).
-/

namespace ProbeAgent

namespace ScheduledTask

@[simp] theorem fresh_id (spec : TaskSpec) (definition : Definition) (next : Option Instant) :
    (fresh spec definition next).id = spec.id := rfl

@[simp] theorem started_id (task : ScheduledTask) (now : Instant) (run : RunId) :
    (task.started now run).id = task.id := rfl

@[simp] theorem ended_id (task : ScheduledTask) (status : TaskStatus) (error : Option String)
    (next : Option Instant) : (task.ended status error next).id = task.id := rfl

theorem ofSpec_eq_ok {spec : TaskSpec} {definition : Definition} {now : Instant}
    {task : ScheduledTask} (h : ofSpec spec definition now = .ok task) :
    ∃ next, spec.timing.nextRunFrom now = .ok next ∧
      task = fresh spec definition next := by
  cases hnext : spec.timing.nextRunFrom now with
  | error e =>
    rw [ofSpec, hnext] at h
    cases h
  | ok next =>
    rw [ofSpec, hnext] at h
    cases h
    exact ⟨next, rfl, rfl⟩

theorem dispatched_eq_ok {task t : ScheduledTask} {now : Instant} {run : RunId}
    (h : task.dispatched now run = .ok t) : t = task.started now run := by
  cases hnext : (task.spec.timing.ranAt now).hasNextRun now with
  | error e =>
    rw [dispatched, hnext] at h
    cases h
  | ok _ =>
    rw [dispatched, hnext] at h
    cases h
    rfl

theorem isDue_iff {task : ScheduledTask} {now : Instant} :
    task.isDue now ↔ task.isWaiting ∧ ∃ next, task.nextRun = some next ∧ next ≤ now := by
  rw [isDue, Bool.and_eq_true, Option.any_eq_true]
  simp only [decide_eq_true_eq]

end ScheduledTask

namespace Scheduler

/-- Each identity is larger than those before it. -/
def Ascending (tasks : List ScheduledTask) : Prop :=
  tasks.Pairwise (·.id.value < ·.id.value)

/-! ## The task of an identity -/

section

variable {tasks : List ScheduledTask}

theorem mem_insertTask {task t : ScheduledTask} :
    t ∈ insertTask task tasks ↔ t = task ∨ t ∈ tasks := by
  induction tasks with
  | nil => rw [insertTask, List.mem_singleton, or_iff_left List.not_mem_nil]
  | cons other rest ih =>
    rw [insertTask]
    split
    · rw [List.mem_cons]
    · rw [List.mem_cons, List.mem_cons, ih, or_left_comm]

theorem ascending_insertTask (h : Ascending tasks) {task : ScheduledTask}
    (hnew : ∀ other ∈ tasks, other.id ≠ task.id) : Ascending (insertTask task tasks) := by
  induction tasks with
  | nil => exact List.pairwise_singleton _ _
  | cons other rest ih =>
    have ⟨hhead, hrest⟩ := List.pairwise_cons.1 h
    have hne : other.id.value ≠ task.id.value := fun heq =>
      hnew other List.mem_cons_self (congrArg TaskId.mk heq)
    rw [insertTask]
    split
    · -- The head is not below the new task, and differs from it.
      rename_i hle
      have hlt : task.id.value < other.id.value := UInt64.lt_of_le_of_ne hle hne.symm
      refine List.pairwise_cons.2 ⟨fun t ht => ?_, h⟩
      rcases List.mem_cons.1 ht with rfl | ht
      · exact hlt
      · exact UInt64.lt_trans hlt (hhead t ht)
    · rename_i hgt
      refine List.pairwise_cons.2 ⟨fun t ht => ?_, ih hrest fun t ht => hnew t (.tail _ ht)⟩
      rcases mem_insertTask.1 ht with rfl | ht
      · exact UInt64.not_le.1 hgt
      · exact hhead t ht

-- A search finds the first task of an identity; in an ascending list there is no other one.
theorem find?_eq_some_iff (h : Ascending tasks) {id : TaskId} {task : ScheduledTask} :
    tasks.find? (·.id = id) = some task ↔ task ∈ tasks ∧ task.id = id := by
  constructor
  · intro hfind
    exact ⟨List.mem_of_find?_eq_some hfind, by simpa using List.find?_some hfind⟩
  · rintro ⟨hmem, rfl⟩
    induction tasks with
    | nil => cases hmem
    | cons other rest ih =>
      have ⟨hhead, hrest⟩ := List.pairwise_cons.1 h
      rcases List.mem_cons.1 hmem with rfl | hmem
      · exact List.find?_cons_of_pos (by simp)
      · rw [List.find?_cons_of_neg, ih hrest hmem]
        intro heq
        have hlt := hhead task hmem
        rw [of_decide_eq_true heq] at hlt
        exact UInt64.lt_irrefl _ hlt

theorem find?_eq_none_iff {id : TaskId} :
    tasks.find? (·.id = id) = none ↔ ∀ task ∈ tasks, task.id ≠ id := by
  simp [List.find?_eq_none]

theorem find?_insertTask {task : ScheduledTask} (hnew : ∀ other ∈ tasks, other.id ≠ task.id)
    (id : TaskId) :
    (insertTask task tasks).find? (·.id = id) =
      if task.id = id then some task else tasks.find? (·.id = id) := by
  induction tasks with
  | nil =>
    rw [insertTask, List.find?_cons]
    by_cases hid : task.id = id
    · rw [if_pos hid, decide_eq_true hid]
    · rw [if_neg hid, decide_eq_false hid]
  | cons other rest ih =>
    have ih := ih fun t ht => hnew t (.tail _ ht)
    have hne := hnew other List.mem_cons_self
    rw [insertTask]
    split
    · rw [List.find?_cons]
      by_cases hid : task.id = id
      · rw [if_pos hid, decide_eq_true hid]
      · rw [if_neg hid, decide_eq_false hid]
    · by_cases hother : other.id = id
      · rw [List.find?_cons_of_pos (by simpa using hother),
          List.find?_cons_of_pos (by simpa using hother),
          if_neg fun hid => hne (hother.trans hid.symm)]
      · rw [List.find?_cons_of_neg (by simpa using hother),
          List.find?_cons_of_neg (by simpa using hother), ih]

theorem find?_filter_ne (gone id : TaskId) :
    (tasks.filter (·.id ≠ gone)).find? (·.id = id) =
      if id = gone then none else tasks.find? (·.id = id) := by
  rw [List.find?_filter]
  split
  · rename_i hid
    rw [List.find?_eq_none]
    intro task _
    simp [hid]
  · rename_i hid
    congr 1
    funext task
    by_cases htask : task.id = id
    · simp [htask, hid]
    · simp [htask]

theorem find?_replaceTask (task : ScheduledTask) (id : TaskId) :
    (replaceTask task tasks).find? (·.id = id) =
      if task.id = id then (tasks.find? (·.id = id)).map fun _ => task
      else tasks.find? (·.id = id) := by
  rw [replaceTask, List.find?_map]
  -- A task that is replaced keeps its identity, so the search stops where it did.
  have hsame : ((fun t : ScheduledTask => decide (t.id = id)) ∘
      fun other => if other.id = task.id then task else other) = fun t => decide (t.id = id) := by
    funext t
    by_cases ht : t.id = task.id
    · simp [ht]
    · simp [ht]
  rw [hsame]
  cases hfind : tasks.find? (·.id = id) with
  | none => split <;> rfl
  | some t =>
    have ht : t.id = id := by simpa using List.find?_some hfind
    by_cases hid : task.id = id
    · simp [hid, ht]
    · simp [hid, ht, Ne.symm hid]

theorem map_id_replaceTask (task : ScheduledTask) :
    (replaceTask task tasks).map (·.id) = tasks.map (·.id) := by
  rw [replaceTask, List.map_map]
  congr 1
  funext t
  by_cases ht : t.id = task.id
  · simp [ht]
  · simp [ht]

-- Being ascending is a matter of the identities alone.
theorem Ascending.of_map_id (h : Ascending tasks) {tasks' : List ScheduledTask}
    (hid : tasks'.map (·.id) = tasks.map (·.id)) : Ascending tasks' := by
  have key : (tasks.map (·.id)).Pairwise (·.value < ·.value) := List.pairwise_map.2 h
  rw [← hid] at key
  have := List.pairwise_map.1 key
  exact this

end

/-! ## Dispatch -/

/-- With `next` as the number of the first run, starting what is due turns the one list of tasks
into the other, gives the jobs, and leaves a number for the run after them. -/
inductive StartsDue (now : Instant) :
    (next : Nat) → (before after : List ScheduledTask) → List Job → (last : Nat) → Prop where
  | nil {next} : StartsDue now next [] [] [] next
  | due {task rest rest' jobs next last} (hdue : task.isDue now = true)
      (h : StartsDue now (next + 1) rest rest' jobs last) :
      StartsDue now next (task :: rest) (task.started now ⟨next⟩ :: rest')
        (⟨task.id, ⟨next⟩, now⟩ :: jobs) last
  | skip {task rest rest' jobs next last} (hskip : task.isDue now = false)
      (h : StartsDue now next rest rest' jobs last) :
      StartsDue now next (task :: rest) (task :: rest') jobs last

theorem startsDue_of_dispatchDue {now : Instant} {tasks tasks' : List ScheduledTask}
    {jobs : List Job} {next last : Nat}
    (h : dispatchDue now tasks next = .ok (tasks', jobs, last)) :
    StartsDue now next tasks tasks' jobs last := by
  -- Only a task that is due takes a number, so the number of the first run varies.
  induction tasks generalizing next tasks' jobs last with
  | nil =>
    cases h
    exact .nil
  | cons task rest ih =>
    rw [dispatchDue] at h
    split at h
    · rename_i hdue
      cases hstart : task.dispatched now ⟨next⟩ with
      | error e =>
        rw [hstart] at h
        cases h
      | ok t =>
        cases hrest : dispatchDue now rest (next + 1) with
        | error e =>
          rw [hstart, hrest] at h
          cases h
        | ok result =>
          obtain ⟨rest', jobs', last'⟩ := result
          rw [hstart, hrest] at h
          cases h
          rw [ScheduledTask.dispatched_eq_ok hstart]
          exact .due hdue (ih hrest)
    · rename_i hskip
      cases hrest : dispatchDue now rest next with
      | error e =>
        rw [hrest] at h
        cases h
      | ok result =>
        obtain ⟨rest', jobs', last'⟩ := result
        rw [hrest] at h
        cases h
        exact .skip (by simpa using hskip) (ih hrest)

namespace StartsDue

variable {now : Instant} {tasks tasks' : List ScheduledTask} {jobs : List Job} {next last : Nat}

theorem next_le (h : StartsDue now next tasks tasks' jobs last) : next ≤ last := by
  induction h with
  | nil => exact Nat.le_refl _
  | due hdue h ih => exact Nat.le_of_succ_le ih
  | skip hskip h ih => exact ih

theorem map_id (h : StartsDue now next tasks tasks' jobs last) :
    tasks'.map (·.id) = tasks.map (·.id) := by
  induction h with
  | nil => rfl
  | due hdue h ih => rw [List.map_cons, List.map_cons, ih, ScheduledTask.started_id]
  | skip hskip h ih => rw [List.map_cons, List.map_cons, ih]

theorem mem_jobs (h : StartsDue now next tasks tasks' jobs last) {job : Job} (hjob : job ∈ jobs) :
    job.startedAt = now ∧ next ≤ job.run.value ∧ job.run.value < last := by
  induction h with
  | nil => cases hjob
  | due hdue h ih =>
    rcases List.mem_cons.1 hjob with rfl | hjob
    · exact ⟨rfl, Nat.le_refl _, h.next_le⟩
    · obtain ⟨hstart, hle, hlt⟩ := ih hjob
      exact ⟨hstart, Nat.le_of_succ_le hle, hlt⟩
  | skip hskip h ih => exact ih hjob

theorem runs_ascending (h : StartsDue now next tasks tasks' jobs last) :
    jobs.Pairwise (·.run.value < ·.run.value) := by
  induction h with
  | nil => exact .nil
  | due hdue h ih => exact List.pairwise_cons.2 ⟨fun job hjob => (h.mem_jobs hjob).2.1, ih⟩
  | skip hskip h ih => exact ih

theorem filter_jobs_eq_nil (h : StartsDue now next tasks tasks' jobs last) {id : TaskId}
    (habsent : ∀ task ∈ tasks, task.id ≠ id) : jobs.filter (·.taskId = id) = [] := by
  induction h with
  | nil => rfl
  | due hdue h ih =>
    rw [List.filter_cons_of_neg (by simpa using habsent _ List.mem_cons_self)]
    exact ih fun task htask => habsent task (.tail _ htask)
  | skip hskip h ih => exact ih fun task htask => habsent task (.tail _ htask)

theorem of_find?_eq_none (h : StartsDue now next tasks tasks' jobs last) {id : TaskId}
    (hfind : tasks.find? (·.id = id) = none) :
    tasks'.find? (·.id = id) = none ∧ jobs.filter (·.taskId = id) = [] := by
  rw [find?_eq_none_iff] at hfind
  -- The tasks afterwards have the identities of those before.
  refine ⟨find?_eq_none_iff.2 fun t ht hid => ?_, h.filter_jobs_eq_nil hfind⟩
  have hmem : t.id ∈ tasks'.map (·.id) := List.mem_map_of_mem ht
  rw [h.map_id] at hmem
  obtain ⟨task, htask, hsame⟩ := List.mem_map.1 hmem
  exact hfind task htask (hsame.trans hid)

-- One task has at most one job, since it is the only one of its identity.
theorem of_find?_eq_some (h : StartsDue now next tasks tasks' jobs last) (hasc : Ascending tasks)
    {id : TaskId} {task : ScheduledTask} (hfind : tasks.find? (·.id = id) = some task) :
    (task.isDue now = true ∧ ∃ run, next ≤ run ∧ run < last ∧
      tasks'.find? (·.id = id) = some (task.started now ⟨run⟩) ∧
      jobs.filter (·.taskId = id) = [⟨id, ⟨run⟩, now⟩]) ∨
    (tasks'.find? (·.id = id) = some task ∧ jobs.filter (·.taskId = id) = []) := by
  -- No later task has the identity of the first one.
  have hlater {first : ScheduledTask} {rest : List ScheduledTask} (hid : first.id = id)
      (hasc : Ascending (first :: rest)) : ∀ t ∈ rest, t.id ≠ id := by
    intro t ht heq
    have hlt := (List.pairwise_cons.1 hasc).1 t ht
    rw [heq, hid] at hlt
    exact UInt64.lt_irrefl _ hlt
  induction h with
  | nil => cases hfind
  | @due other rest rest' jobs next last hdue h ih =>
    by_cases hother : other.id = id
    · rw [List.find?_cons_of_pos (by simp [hother])] at hfind
      cases hfind
      refine .inl ⟨hdue, next, Nat.le_refl _, h.next_le,
        List.find?_cons_of_pos (by simp [hother]), ?_⟩
      rw [List.filter_cons_of_pos (by simp [hother]),
        h.filter_jobs_eq_nil (hlater hother hasc), hother]
    · rw [List.find?_cons_of_neg (by simp [hother])] at hfind
      rw [List.find?_cons_of_neg (by simp [hother]), List.filter_cons_of_neg (by simp [hother])]
      rcases ih (List.pairwise_cons.1 hasc).2 hfind with ⟨hdue', run, hle, hrun⟩ | hkept
      · exact .inl ⟨hdue', run, Nat.le_of_succ_le hle, hrun⟩
      · exact .inr hkept
  | @skip other rest rest' jobs next last hskip h ih =>
    by_cases hother : other.id = id
    · rw [List.find?_cons_of_pos (by simp [hother])] at hfind
      cases hfind
      exact .inr ⟨List.find?_cons_of_pos (by simp [hother]),
        h.filter_jobs_eq_nil (hlater hother hasc)⟩
    · rw [List.find?_cons_of_neg (by simp [hother])] at hfind ⊢
      exact ih (List.pairwise_cons.1 hasc).2 hfind

end StartsDue

end Scheduler

end ProbeAgent
