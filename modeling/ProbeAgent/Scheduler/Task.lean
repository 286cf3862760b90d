import ProbeAgent.Measurement.Registry
import ProbeAgent.Task.Spec

/-!
# Scheduled tasks

A task as the scheduler keeps it: what it is to do, when it is due next, and which run of it is the
latest.
-/

namespace ProbeAgent

inductive TaskStatus where
  -- It waits for its next run.
  | idle
  -- A run is in progress.
  | running
  -- The last run had a result.
  | finished
  -- The last run failed; there will be no other.
  | error
  deriving DecidableEq

def TaskStatus.wireName : TaskStatus → String
  | idle => "idle"
  | running => "running"
  | finished => "finished"
  | error => "error"

def TaskStatus.label : TaskStatus → String
  | idle => "Idle"
  | running => "Running"
  | finished => "Finished"
  | error => "Error"

/-- The number of a run; later runs have larger numbers.  Numbers do not run out: of a counter with 64
bits this says that fewer than 2^64 runs are started. -/
structure RunId where
  value : Nat
  deriving DecidableEq

structure ScheduledTask where
  spec : TaskSpec
  definition : Definition
  status : TaskStatus
  -- When the next run is due; `none` if there is none.
  nextRun : Option Instant
  -- Why the last run failed.
  lastError : Option String
  -- The run in progress, by which it can be cancelled.
  cancel : Option RunId
  -- The latest run; 0 before the first.
  latest : RunId

structure TaskState where
  taskId : TaskId
  method : String
  status : TaskStatus
  nextRun : Option Instant
  lastError : Option String
  deriving DecidableEq

namespace TaskState

def toJson (s : TaskState) : Json := .obj [
  ("task_id", s.taskId.toJson),
  ("method", .str s.method),
  ("status", .str s.status.wireName),
  ("next_run", .ofOption (s.nextRun.map Instant.toJson)),
  ("last_error", .ofOption (s.lastError.map .str))]

def describeOption : Option String → String
  | none => "None"
  | some text => "Some(" ++ text ++ ")"

def describe (s : TaskState) : String :=
  "TaskState \x7b task_id: TaskId(" ++ s.taskId.render ++ "), method: " ++ Text.quoted s.method
    ++ ", status: " ++ s.status.label
    ++ ", next_run: " ++ describeOption (s.nextRun.map Instant.render)
    ++ ", last_error: " ++ describeOption (s.lastError.map Text.quoted) ++ " \x7d"

end TaskState

namespace ScheduledTask

def id (task : ScheduledTask) : TaskId := task.spec.id

def fresh (spec : TaskSpec) (definition : Definition) (next : Option Instant) : ScheduledTask where
  spec := spec
  definition := definition
  status := .idle
  nextRun := next
  lastError := none
  cancel := none
  latest := ⟨0⟩

def ofSpec (spec : TaskSpec) (definition : Definition) (now : Instant) : Checked ScheduledTask := do
  return fresh spec definition (← spec.timing.nextRunFrom now)

/-- Whether the task waits for a run, rather than having one in progress or having failed. -/
def isWaiting (task : ScheduledTask) : Bool :=
  task.status = .idle ∨ task.status = .finished

def isDue (task : ScheduledTask) (now : Instant) : Bool :=
  task.isWaiting && task.nextRun.any fun next => decide (next ≤ now)

def started (task : ScheduledTask) (now : Instant) (run : RunId) : ScheduledTask :=
  { task with
    spec := { task.spec with timing := task.spec.timing.ranAt now }
    status := .running
    lastError := none
    cancel := some run
    latest := run }

/-- Starts a run, unless the time after it has no date. -/
def dispatched (task : ScheduledTask) (now : Instant) (run : RunId) : Checked ScheduledTask := do
  let _ ← (task.spec.timing.ranAt now).hasNextRun now
  return task.started now run

def ended (task : ScheduledTask) (status : TaskStatus) (error : Option String)
    (next : Option Instant) : ScheduledTask :=
  { task with
    status := status
    cancel := none
    lastError := error
    nextRun := next }

def state (task : ScheduledTask) : TaskState :=
  ⟨task.id, task.spec.method, task.status, task.nextRun, task.lastError⟩

end ScheduledTask

end ProbeAgent
