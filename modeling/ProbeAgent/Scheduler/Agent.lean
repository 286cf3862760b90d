import ProbeAgent.Scheduler.Basic

/-!
# Runs in flight

An agent is a scheduler with the runs that it has dispatched and that have not ended.  A run goes
through the stages of `Stage`, each step of it on its own, so that runs, and what others do to the
tasks, interleave in any order.  From `admitted` on a run holds one of a limited number of permits.

`Agent.conduct` takes one run through all its stages; `Agent.runPending` does so with all runs that
are due, in the order of their numbers.
-/

namespace ProbeAgent

inductive Stage where
  -- It is dispatched, and nobody has been told yet.
  | announcing
  -- It waits for a permit.
  | queued
  -- It has a permit.
  | admitted
  -- Its session is under way.
  | measuring
  -- Its session has ended, and the task does not know yet.
  | measured (outcome : Scheduler.Outcome)
  -- The task knows, and others are to be told.
  | reporting (events : List SchedulerEvent)

def Stage.holdsPermit : Stage → Bool
  | announcing | queued => false
  | admitted | measuring | measured _ | reporting _ => true

structure Flight where
  job : Job
  stage : Stage

structure Agent where
  scheduler : Scheduler
  -- How many runs can measure at the same time.
  permits : Nat
  permits_pos : 0 < permits
  -- In the order of dispatch.
  flights : List Flight

namespace Agent

theorem one_le_permits (maxConcurrent : Nat) : 0 < max 1 maxConcurrent := by
  omega

/-- An agent without tasks, with at least one permit. -/
def empty (registry : MethodRegistry) (results : ReportStore) (maxConcurrent : Nat) : Agent where
  scheduler := .empty registry results
  permits := max 1 maxConcurrent
  permits_pos := one_le_permits maxConcurrent
  flights := []

def permitsTaken (a : Agent) : Nat := a.flights.countP (·.stage.holdsPermit)

def stage? (a : Agent) (job : Job) : Option Stage :=
  (a.flights.find? (·.job = job)).map (·.stage)

def setStage (a : Agent) (job : Job) (stage : Stage) : Agent :=
  { a with flights := a.flights.map fun f => if f.job = job then { f with stage := stage } else f }

def land (a : Agent) (job : Job) : Agent :=
  { a with flights := a.flights.filter (·.job ≠ job) }

/-! ## The steps of a run -/

def dispatch (a : Agent) (now : Instant) : Checked (List Job × Agent) := do
  let (jobs, scheduler) ← a.scheduler.dispatch now
  return (jobs, { a with
    scheduler := scheduler
    flights := a.flights ++ jobs.map (Flight.mk · .announcing) })

/-- The agent after an operation on its tasks broke off. -/
def loseTasks (a : Agent) : Agent :=
  { a with scheduler := { a.scheduler with intact := false } }

/-- Starts a run of each task that is due; if that fails, the tasks are lost. -/
def tryDispatch (a : Agent) (now : Instant) : Checked (List Job) × Agent :=
  match a.dispatch now with
  | .error e => (.error e, a.loseTasks)
  | .ok (jobs, a) => (.ok jobs, a)

def announce (a : Agent) (job : Job) : Option SchedulerEvent × Agent :=
  match a.stage? job with
  | some .announcing => (some (.statusChanged job.taskId .running), a.setStage job .queued)
  | _ => (none, a)

def grantPermit (a : Agent) (job : Job) : Agent :=
  match a.stage? job with
  | some .queued => if a.permitsTaken < a.permits then a.setStage job .admitted else a
  | _ => a

def begin (a : Agent) (job : Job) : Option (Run (Option RunResult)) × Agent :=
  match a.stage? job with
  | some .admitted =>
    match a.scheduler.plan? job with
    -- A run that is not the latest of its task ends here.
    | .error _ | .ok none => (none, a.land job)
    | .ok (some plan) =>
      match plan.session (a.scheduler.isCancelled job.run) with
      -- There is nothing to measure, but the run still completes.
      | .error outcome => (none, a.setStage job (.measured outcome))
      | .ok session => (some session, a.setStage job .measuring)
  | _ => (none, a)

def finish (a : Agent) (job : Job) (outcome : Scheduler.Outcome) : Agent :=
  match a.stage? job with
  | some .measuring => a.setStage job (.measured outcome)
  | _ => a

def complete (a : Agent) (job : Job) (now : Instant) : Option ReportEvent × Agent :=
  match a.stage? job with
  | some (.measured outcome) =>
    let completion := a.scheduler.complete job outcome now
    (completion.recorded,
      { a with scheduler := completion.scheduler }.setStage job (.reporting completion.events))
  | _ => (none, a)

def report (a : Agent) (job : Job) : Option SchedulerEvent × Agent :=
  match a.stage? job with
  -- When all is told the run is gone.
  | some (.reporting []) => (none, a.land job)
  | some (.reporting (event :: rest)) => (some event, a.setStage job (.reporting rest))
  | _ => (none, a)

/-! ## Whole runs -/

/-- What an agent lives in: something that keeps it, shows the time, carries sessions out, and takes
the events. -/
structure Surroundings (m : Type → Type) where
  step : {α : Type} → (Agent → α × Agent) → m α
  now : m (Checked Instant)
  measure : Job → Run (Option RunResult) → m Scheduler.Outcome
  emit : SchedulerEvent → m Unit
  publish : ReportEvent → m Unit

variable {m : Type → Type} [Monad m]

def reportUpTo (env : Surroundings m) (job : Job) : Nat → m Unit
  | 0 => pure ()
  | left + 1 => do
    match ← env.step (·.report job) with
    | none => pure ()
    | some event =>
      env.emit event
      reportUpTo env job left

/-- Tells all that is to be told about the end of a run: never more than two things. -/
def reportAll (env : Surroundings m) (job : Job) : m Unit := reportUpTo env job 3

/-- Takes a run that waits for its permit through all further stages. -/
def conduct (env : Surroundings m) (job : Job) : m Unit := do
  env.step fun a => ((), a.grantPermit job)
  if let some session ← env.step (·.begin job) then
    let outcome ← env.measure job session
    env.step fun a => ((), a.finish job outcome)
  match ← env.now with
  -- A run that cannot tell the time breaks off.
  | .error _ => env.step fun a => ((), a.land job)
  | .ok now =>
    if let some event ← env.step (·.complete job now) then env.publish event
    reportAll env job

def launch (env : Surroundings m) : m (Checked (List Job)) := do
  match ← env.now with
  | .error e => return .error e
  | .ok now =>
    let started ← env.step fun a : Agent => a.tryDispatch now
    match started with
    | .error e => return .error e
    | .ok jobs =>
      for job in jobs do
        if let some event ← env.step (·.announce job) then env.emit event
      return .ok jobs

/-- Takes all runs in flight to their end; the answer is how many they were. -/
def settle (env : Surroundings m) : m Nat := do
  let jobs ← env.step fun a => (a.flights.map (·.job), a)
  for job in jobs do conduct env job
  return jobs.length

def runPending (env : Surroundings m) : m (Checked Nat) := do
  match ← launch env with
  | .error e => return .error e
  | .ok jobs =>
    for job in jobs do conduct env job
    return .ok jobs.length

/-! ## Serving -/

def shutDown (a : Agent) : Agent :=
  match a.scheduler.stopAll with
  | .error _ => a
  | .ok scheduler => { a with scheduler := scheduler }

/-- How long to wait before due tasks are looked for again: until the next one is due, but never
longer than a tick.  Both are in milliseconds. -/
def waitTime (a : Agent) (now : Instant) (tick : UInt64) : Checked UInt64 := do
  match ← a.scheduler.nextDue with
  | none => return tick
  | some next =>
    let left := next.since now / nanosPerMilli
    return if left < 0 then 0 else if tick.toNat ≤ left.toNat then tick else .ofNat left.toNat

/-- Serves the tasks until `enough` says that it is enough: starts what is due, and takes one run
after the other to its end.  At most `fuel` runs are taken to their end. -/
def serveUntil (env : Surroundings m) (enough : m Bool) : (fuel : Nat) → m (Checked Unit)
  | 0 => return .ok ()
  | fuel + 1 => do
    match ← launch env with
    | .error e => return .error e
    | .ok _ =>
      if ← enough then return .ok ()
      match ← env.step fun a => (a.flights.head?, a) with
      | none => return .ok ()
      | some flight =>
        conduct env flight.job
        if ← enough then return .ok () else serveUntil env enough fuel

end Agent

end ProbeAgent
