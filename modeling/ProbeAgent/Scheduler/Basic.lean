import ProbeAgent.Result.Store
import ProbeAgent.Scheduler.Task

/-!
# The scheduler

All tasks, in the order of their identities, with the store of their results.  Every operation here
is one step that nothing else can interleave; how the steps of a run follow each other is in
`ProbeAgent.Scheduler.Agent`.

A run is known by its number.  What a run leaves counts only while it is the latest run of its task,
so a run that outlives its task leaves nothing.

If the time after a run has no date, the set of tasks is not usable any more: `intact` is false, and
no operation on the tasks succeeds.
-/

namespace ProbeAgent

inductive SchedulerError where
  | duplicateTask (id : TaskId)
  | unknownTask (id : TaskId)
  | definition (error : DefinitionError)
  deriving DecidableEq

def SchedulerError.message : SchedulerError → String
  | duplicateTask id => "Task " ++ id.render ++ " is already scheduled"
  | unknownTask id => "Unknown task " ++ id.render
  | definition error => error.message

inductive SchedulerEvent where
  | statusChanged (id : TaskId) (status : TaskStatus)
  -- A run failed.
  | error (id : TaskId) (message : String)
  deriving DecidableEq

structure Job where
  taskId : TaskId
  run : RunId
  startedAt : Instant
  deriving DecidableEq

structure Scheduler where
  registry : MethodRegistry
  -- In the order of identities.
  tasks : List ScheduledTask
  -- The number of the next run.
  nextRunId : Nat
  -- Runs that were told to stop.
  cancelled : List RunId
  results : ReportStore
  intact : Bool

namespace Scheduler

def empty (registry : MethodRegistry) (results : ReportStore) : Scheduler where
  registry := registry
  tasks := []
  nextRunId := 1
  cancelled := []
  results := results
  intact := true

def checkIntact (s : Scheduler) : Checked Unit :=
  if s.intact then return () else throw .yearOutOfRange

def find? (s : Scheduler) (id : TaskId) : Option ScheduledTask :=
  s.tasks.find? (·.id = id)

/-- The task of a run, if the run is still its latest. -/
def current? (s : Scheduler) (job : Job) : Option ScheduledTask :=
  (s.find? job.taskId).filter (·.latest = job.run)

def isCancelled (s : Scheduler) (run : RunId) : Bool :=
  s.cancelled.contains run

def cancelRun (s : Scheduler) (run : Option RunId) : Scheduler :=
  { s with cancelled := run.toList ++ s.cancelled }

/-! ## The set of tasks -/

def insertTask (task : ScheduledTask) : List ScheduledTask → List ScheduledTask
  | [] => [task]
  | other :: rest =>
    if task.id.value ≤ other.id.value then task :: other :: rest
    else other :: insertTask task rest

def replaceTask (task : ScheduledTask) (tasks : List ScheduledTask) : List ScheduledTask :=
  tasks.map fun other => if other.id = task.id then task else other

def enqueue (s : Scheduler) (spec : TaskSpec) (now : Instant) :
    Checked (Except SchedulerError Scheduler) := do
  -- The options are read at once, so that a task that cannot run is refused here.
  match s.registry.definition spec.method spec.options with
  | .error e => return .error (.definition e)
  | .ok definition =>
    s.checkIntact
    if (s.find? spec.id).isSome then return .error (.duplicateTask spec.id)
    let task ← ScheduledTask.ofSpec spec definition now
    return .ok { s with tasks := insertTask task s.tasks }

/-- Takes a task out and tells its run to stop; its report is kept. -/
def remove (s : Scheduler) (id : TaskId) :
    Checked (Except SchedulerError (TaskSpec × Scheduler)) := do
  s.checkIntact
  match s.find? id with
  | none => return .error (.unknownTask id)
  | some task =>
    let tasks := s.tasks.filter (·.id ≠ id)
    return .ok (task.spec, { s.cancelRun task.cancel with tasks := tasks })

/-- Tells the run of a task to stop; the answer is whether there is one. -/
def stop (s : Scheduler) (id : TaskId) : Checked (Except SchedulerError (Bool × Scheduler)) := do
  s.checkIntact
  match s.find? id with
  | none => return .error (.unknownTask id)
  | some task => return .ok (task.cancel.isSome, s.cancelRun task.cancel)

def stopAll (s : Scheduler) : Checked Scheduler := do
  s.checkIntact
  return { s with cancelled := s.tasks.filterMap (·.cancel) ++ s.cancelled }

/-! ## Questions -/

def state? (s : Scheduler) (id : TaskId) : Checked (Option TaskState) := do
  s.checkIntact
  return (s.find? id).map ScheduledTask.state

def states (s : Scheduler) : Checked (List TaskState) := do
  s.checkIntact
  return s.tasks.map ScheduledTask.state

def lookup (s : Scheduler) (id : TaskId) : Checked (Option TaskSpec) := do
  s.checkIntact
  return (s.find? id).map (·.spec)

def earlier (a : Option Instant) (b : Instant) : Option Instant :=
  match a with
  | none => some b
  | some a => if b < a then some b else some a

def nextDue (s : Scheduler) : Checked (Option Instant) := do
  s.checkIntact
  return ((s.tasks.filter (·.isWaiting)).filterMap (·.nextRun)).foldl earlier none

def rows (s : Scheduler) : Checked (List ReportRow) := do
  -- Without reports no task is looked for.
  unless s.results.reports.isEmpty do s.checkIntact
  return s.results.rows fun id => (s.find? id).map (·.spec)

/-! ## Dispatch -/

/-- Starts a run of each task that is due, with numbers from `next` on. -/
def dispatchDue (now : Instant) :
    List ScheduledTask → (next : Nat) → Checked (List ScheduledTask × List Job × Nat)
  | [], next => return ([], [], next)
  | task :: rest, next => do
    if task.isDue now then
      let started ← task.dispatched now ⟨next⟩
      let (rest, jobs, last) ← dispatchDue now rest (next + 1)
      return (started :: rest, ⟨task.id, ⟨next⟩, now⟩ :: jobs, last)
    else
      let (rest, jobs, last) ← dispatchDue now rest next
      return (task :: rest, jobs, last)

def dispatch (s : Scheduler) (now : Instant) : Checked (List Job × Scheduler) := do
  s.checkIntact
  let (tasks, jobs, next) ← dispatchDue now s.tasks s.nextRunId
  return (jobs, { s with tasks := tasks, nextRunId := next })

/-! ## The course of a run -/

structure RunPlan where
  measurement : Except DefinitionError Measurement
  definition : Definition

/-- What a run is to do; `none` if it is not the latest run of its task. -/
def plan? (s : Scheduler) (job : Job) : Checked (Option RunPlan) := do
  s.checkIntact
  return (s.current? job).map fun task =>
    ⟨s.registry.measurement task.spec.method, task.definition⟩

abbrev Outcome := Except MeasurementError (Option RunResult)

def brokenOff (reason : String) : MeasurementError :=
  .config ("measurement thread failed: task # panicked with message " ++ Text.quoted reason)

/-- The session of a run: none if it was told to stop, or if nothing measures its method. -/
def RunPlan.session (plan : RunPlan) (stopped : Bool) : Except Outcome (Run (Option RunResult)) :=
  if stopped then throw (.error .cancelled)
  else
    match plan.measurement with
    | .error e => throw (.error (.config e.message))
    | .ok measurement => return measurement.perform plan.definition

def conclusion : Outcome → TaskStatus × Option String
  | .ok _ => (.finished, none)
  | .error .cancelled => (.idle, none)
  | .error e => (.error, some e.message)

def resultOf : Outcome → Option RunResult
  | .ok result => result
  | .error _ => none

/-- What a completed run changed: the events of the store, and the events that are to follow. -/
structure Completion where
  scheduler : Scheduler
  recorded : Option ReportEvent
  events : List SchedulerEvent

def record (s : Scheduler) (job : Job) (result : Option RunResult) :
    Scheduler × Option ReportEvent :=
  match result with
  | none => (s, none)
  | some result =>
    let (results, event) := s.results.record job.taskId job.startedAt result
    ({ s with results := results }, some event)

def endEvents (id : TaskId) (status : TaskStatus) (error : Option String) : List SchedulerEvent :=
  (error.map (.error id)).toList ++ [.statusChanged id status]

def nextAfter (task : ScheduledTask) (status : TaskStatus) (now : Instant) :
    Checked (Option Instant) :=
  -- A task that failed is not run again.
  if status = .error then return none else task.spec.timing.nextRunFrom now

/-- Nothing changes unless the run is the latest of its task. -/
def complete (s : Scheduler) (job : Job) (outcome : Outcome) (now : Instant) : Completion :=
  if !s.intact then ⟨s, none, []⟩
  else
    match s.current? job with
    | none => ⟨s, none, []⟩
    | some task =>
      let (status, error) := conclusion outcome
      let (s, recorded) := s.record job (resultOf outcome)
      match nextAfter task status now with
      -- The result has been recorded, but nobody is told of the end.
      | .error _ => ⟨{ s with intact := false }, recorded, []⟩
      | .ok next =>
        let tasks := replaceTask (task.ended status error next) s.tasks
        ⟨{ s with tasks := tasks }, recorded, endEvents job.taskId status error⟩

/-! ## Description -/

/-- The longest that the scheduler waits before it looks for due tasks again, in milliseconds. -/
def defaultTick : UInt64 := 1000

def describe (s : Scheduler) : Checked String := do
  let states ← s.states
  return "Scheduler \x7b tasks: [" ++ ", ".intercalate (states.map TaskState.describe)
    ++ "], tick: 1s \x7d"

end Scheduler

def describeContext (registry : MethodRegistry) (transport : String) : String :=
  "Context \x7b registry: " ++ registry.describe
    ++ ", transport: " ++ Text.quoted transport ++ " \x7d"

end ProbeAgent
