import ProbeAgent.Result.Feed
import ProbeAgent.Scheduler.Agent
import ProbeAgent.Simulation.Bench

/-!
# Agents in simulated surroundings

A world has an agent, a clock that moves only when told to, a scripted line, and feeds of what the
agent tells.  While a socket is being opened a script can do to the agent what others would do at
that moment: stop, remove or add a task, move the clock, or make the run break off.
-/

namespace ProbeAgent.Simulation

structure World where
  agent : Agent
  -- Lost if it was moved beyond the years that have dates.
  clock : Checked Instant
  line : ScriptedLine
  -- Attempts to open a socket.
  calls : Nat
  -- Numbers that were drawn.
  draws : Nat
  -- The run whose session is under way.
  running : RunId
  events : Feed SchedulerEvent
  resultEvents : Feed ReportEvent
  -- Changes of status, other than starts of runs, since they were last counted.
  changes : Nat

namespace World

def new (agent : Agent) (now : Instant) : World where
  agent := agent
  clock := .ok now
  line := .unused
  calls := 0
  draws := 0
  running := ⟨0⟩
  events := .empty
  resultEvents := .empty
  changes := 0

def withScheduler (w : World) (s : Scheduler) : World :=
  { w with agent := { w.agent with scheduler := s } }

end World

/-- Part of a run: it may break off for a reason. -/
abbrev Scene := ExceptT String (StateM World)

def outOfYears : String := "date out of range"

def loseTasks : Scene Unit := do
  modify fun w => w.withScheduler { w.agent.scheduler with intact := false }
  throw outOfYears

/-- Does something to the scheduler; a refusal changes nothing. -/
def tryScheduler {α : Type} (act : Scheduler → Checked (Except SchedulerError (α × Scheduler))) :
    Scene (Option α) := do
  match act (← get).agent.scheduler with
  | .ok (.ok (a, s)) =>
    modify (·.withScheduler s)
    return some a
  | .ok (.error _) => return none
  | .error _ =>
    loseTasks
    return none

def moveClock (millis : Int) : Scene Unit := do
  match (← get).clock.bind (·.advance millis) with
  | .ok t => modify fun w => { w with clock := .ok t }
  | .error e =>
    modify fun w => { w with clock := .error e }
    throw outOfYears

def addAgain (spec : TaskSpec) : Scene Unit := do
  match (← get).clock with
  | .error _ => throw outOfYears
  | .ok now =>
    let _ ← tryScheduler fun s => do
      return (← s.enqueue spec now).map ((), ·)

def Incident.happen (incident : Incident) : Scene Unit := do
  if incident.breakOff then throw "scripted panic"
  if let some millis := incident.advance then moveClock millis
  if let some id := incident.stop then
    let _ ← tryScheduler (·.stop id)
  if let some id := incident.remove then
    if let some spec ← tryScheduler (·.remove id) then
      if incident.readd then addAgain spec

def World.network (script : Script) : Network Scene where
  isCancelled := return (← get).agent.scheduler.isCancelled (← get).running
  cancel := modify fun w => w.withScheduler (w.agent.scheduler.cancelRun (some w.running))
  openSocket spec := do
    let rule := script.ruleFor (← get).calls spec
    modify fun w => { w with calls := w.calls + 1 }
    rule.incident.happen
    modifyGet fun w =>
      let (result, line) := w.line.openSocket rule.reply
      (result, { w with line := line })
  send payload := modifyGet fun w =>
    let (result, line) := w.line.send payload
    (result, { w with line := line })
  looks _ := return (← get).line.looks
  receive := modifyGet fun w =>
    let (result, line) := w.line.receive
    (result, { w with line := line })
  closeSocket := modify fun w => { w with line := w.line.close }
  sleep _ := pure ()
  drawRequestId := modifyGet fun w => (.ofNat (w.draws + 1), { w with draws := w.draws + 1 })
  drawPorts := modifyGet fun w => (portsOf w.draws, { w with draws := w.draws + 1 })

def endsRun : SchedulerEvent → Bool
  | .statusChanged _ .running | .error .. => false
  | .statusChanged .. => true

def World.surroundings (script : Script) : Agent.Surroundings (StateM World) where
  step f := modifyGet fun w =>
    let (a, agent) := f w.agent
    (a, { w with agent := agent })
  now := return (← get).clock
  measure job session := do
    modify fun w => { w with running := job.run }
    match ← (Session.run (World.network script) session.run).run with
    | .ok outcome => return outcome
    | .error reason => return .error (Scheduler.brokenOff reason)
  emit event := modify fun w => { w with
    events := w.events.push event
    changes := if endsRun event then w.changes + 1 else w.changes }
  publish event := modify fun w => { w with resultEvents := w.resultEvents.push event }

/-- Serves until so many runs have ended, then shuts down and takes the other runs to their end; the
answer is how many ended before. -/
def World.serve (script : Script) (wanted fuel : Nat) : StateM World (Checked Nat) := do
  let env := World.surroundings script
  modify fun w => { w with changes := 0 }
  match ← Agent.serveUntil env (return wanted ≤ (← get).changes) fuel with
  | .error e => return .error e
  | .ok () =>
    let ended := (← get).changes
    modify fun w => { w with agent := w.agent.shutDown }
    let _ ← Agent.settle env
    return .ok ended

end ProbeAgent.Simulation
