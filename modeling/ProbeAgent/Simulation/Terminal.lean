import ProbeAgent.CommandLine.Work
import ProbeAgent.Net.Target
import ProbeAgent.Simulation.Bench

/-!
# Commands at a simulated terminal

A terminal runs a command in virtual time: computing takes none, waiting takes as long as it says.
Its network opens no sockets.  A user may interrupt the command, some time after so many lines have
been printed and a message has been logged so many times.
-/

namespace ProbeAgent.Simulation

open ProbeAgent.CommandLine

inductive LogMessage where
  -- An agent has begun to serve its tasks.
  | serving
  | probeFailed
  | taskFailed
  deriving DecidableEq

structure Interrupt where
  lines : Nat
  message : Option LogMessage
  times : Nat

/-- How long a user takes to react, in milliseconds. -/
def reactionTime : Nat := 100

structure Terminal where
  interrupt : Option Interrupt
  -- Milliseconds since the command began.
  time : Nat
  -- When the user will interrupt the command.
  interruptTime : Option Nat
  -- The latest first.
  printed : List String
  logged : List LogMessage

namespace Terminal

def isMet (t : Terminal) (i : Interrupt) : Bool :=
  decide (i.lines ≤ t.printed.length)
    && i.message.all fun message => decide (i.times ≤ t.logged.count message)

def watched (t : Terminal) : Terminal :=
  match t.interruptTime, t.interrupt with
  | none, some i =>
    if t.isMet i then { t with interruptTime := some (t.time + reactionTime) } else t
  | _, _ => t

def new (interrupt : Option Interrupt) : Terminal := watched ⟨interrupt, 0, none, [], []⟩

def print (text : String) (t : Terminal) : Terminal :=
  { t with printed := text :: t.printed }.watched

def log (message : LogMessage) (t : Terminal) : Terminal :=
  { t with logged := message :: t.logged }.watched

def isInterrupted (t : Terminal) : Bool := t.interruptTime.any (· ≤ t.time)

def waited (time : Nat) (t : Terminal) : Terminal :=
  { t with time := max t.time ((t.interruptTime.map (min time)).getD time) }

def noLookup (_ : String) : Except String (List IpAddress) :=
  .error "names cannot be looked up"

def refuse (spec : SocketSpec) : TransportError := refuseSocket noLookup "linux" spec

def network : Network (StateM Terminal) where
  isCancelled := return (← get).isInterrupted
  cancel := pure ()
  openSocket spec := do
    modify (log .probeFailed)
    return .error (refuse spec)
  send _ := return .ok 0
  looks _ := return 0
  receive := return .ok none
  closeSocket := pure ()
  sleep millis := modify fun t => t.waited (t.time + millis.toNat)
  drawRequestId := return 0
  drawPorts := return portsOf 0

/-- The state of a session that has got to its next wait or to its end. -/
inductive Progress (α : Type) where
  | ended (a : α)
  | waiting (millis : UInt64) (rest : Session α)

def progress {α : Type} : Session α → StateM Terminal (Progress α)
  | .done a => return .ended a
  | .sleep millis next => return .waiting millis next
  | .isCancelled next => do progress (next (← network.isCancelled))
  | .cancel next => do network.cancel; progress next
  | .openSocket spec next => do progress (next (← network.openSocket spec))
  | .send payload next => do progress (next (← network.send payload))
  | .looks timeout next => do progress (next (← network.looks timeout))
  | .receive next => do progress (next (← network.receive))
  | .closeSocket next => do network.closeSocket; progress next
  | .drawRequestId next => do progress (next (← network.drawRequestId))
  | .drawPorts next => do progress (next (← network.drawPorts))

end Terminal

/-! ## Serving tasks -/

structure Sleeper where
  job : Job
  wakeTime : Nat
  rest : Session Scheduler.Outcome

structure Desk where
  terminal : Terminal
  agent : Agent
  sleepers : List Sleeper
  -- What the corrected clock showed when the command began.
  start : Checked Instant
  json : Bool

namespace Desk

def now (d : Desk) : Checked Instant := do (← d.start).advance d.terminal.time

def step {α : Type} (f : Agent → α × Agent) : StateM Desk α :=
  modifyGet fun d =>
    let (a, agent) := f d.agent
    (a, { d with agent := agent })

def atTerminal {α : Type} (act : StateM Terminal α) : StateM Desk α :=
  modifyGet fun d =>
    let (a, terminal) := act.run d.terminal
    (a, { d with terminal := terminal })

def publish (event : ReportEvent) : StateM Desk Unit := do
  let d ← get
  let task := (d.agent.scheduler.lookup event.taskId).toOption.join
  atTerminal (modify (Terminal.print (event.display task d.json)))

/-- Takes a run whose session has ended to its own end. -/
def land (job : Job) (outcome : Scheduler.Outcome) : StateM Desk Unit := do
  step fun a => ((), a.finish job outcome)
  match (← get).now with
  | .error _ => step fun a => ((), a.land job)
  | .ok now =>
    if let some event ← step (·.complete job now) then publish event
    for _ in [0, 1, 2] do
      if let some (.error ..) ← step (·.report job) then
        atTerminal (modify (Terminal.log .taskFailed))

def follow (job : Job) (session : Session Scheduler.Outcome) : StateM Desk Unit := do
  match ← atTerminal (Terminal.progress session) with
  | .ended outcome => land job outcome
  | .waiting millis rest =>
    modify fun d =>
      { d with sleepers := ⟨job, d.terminal.time + millis.toNat, rest⟩ :: d.sleepers }

def begin (job : Job) : StateM Desk Unit := do
  step fun a => ((), a.grantPermit job)
  match ← step (·.begin job) with
  | some session => follow job session.run
  | none =>
    -- A run that ended without a session.
    match (← get).agent.stage? job with
    | some (.measured outcome) => land job outcome
    | _ => pure ()

def wake : StateM Desk Unit := do
  let d ← get
  let (due, others) := d.sleepers.partition (·.wakeTime ≤ d.terminal.time)
  set { d with sleepers := others }
  for sleeper in due.reverse do follow sleeper.job sleeper.rest

def launch : StateM Desk Unit := do
  if let .ok now := (← get).now then
    if let .ok jobs ← step (·.tryDispatch now) then
      for job in jobs do
        let _ ← step (·.announce job)

/-- Begins the runs that wait for a permit, in the order of their dispatch. -/
def admitAll : StateM Desk Unit := do
  for flight in (← get).agent.flights do begin flight.job

def nextTime (d : Desk) (tick : UInt64) : Nat :=
  let wait :=
    match d.now.bind (d.agent.waitTime · tick) with
    | .ok millis => millis
    | .error _ => tick
  (d.sleepers.map (·.wakeTime)).foldl min (d.terminal.time + max 1 wait.toNat)

def serve (tick : UInt64) : (rounds : Nat) → StateM Desk Unit
  | 0 => pure ()
  | rounds + 1 => do
    wake
    launch
    admitAll
    let time := (← get).nextTime tick
    atTerminal (modify (Terminal.waited time))
    if (← get).terminal.isInterrupted then pure () else serve tick rounds

end Desk

/-! ## Commands -/

structure Ending where
  exitCode : UInt32
  printed : List String
  error : Option CommandError

namespace Ending

def printing (lines : List String) : Ending := ⟨0, lines, none⟩

def failing (error : CommandError) : Ending := ⟨error.exitCode, [], some error⟩

end Ending

def maxRounds : Nat := 5000

/-- Does the work of a command; `start` is what the machine's clock shows. -/
def Terminal.perform (start : Instant) (interrupt : Option Interrupt) : Work → Ending
  | .list lines => .printing lines
  | .once definition json =>
    let session := (measureOnce definition).run
    let (outcome, _) := (session.run Terminal.network).run (.new interrupt)
    match onceLines outcome json with
    | .ok lines => .printing lines
    | .error e => .failing e
  | .serve agent correction tick json =>
    let terminal := (Terminal.new interrupt).log .serving
    let desk : Desk := ⟨terminal, agent, [], start.advance correction.millis, json⟩
    let (_, desk) := (Desk.serve tick maxRounds).run desk
    .printing desk.terminal.printed.reverse

def Terminal.runProgram (arguments : List String) (readFile : String → Except String String)
    (start : Instant) (interrupt : Option Interrupt) : Ending :=
  match Invocation.parse arguments with
  | .error .explained => .printing []
  | .error .misused => ⟨2, [], none⟩
  | .ok invocation =>
    let machine : Machine Id := ⟨readFile, start⟩
    match (invocation.work machine).run with
    | .error e => .failing e
    | .ok work => Terminal.perform start interrupt work

end ProbeAgent.Simulation
