import ProbeAgent.CommandLine.Display
import ProbeAgent.CommandLine.Invocation
import ProbeAgent.Config.Basic
import ProbeAgent.Config.LogLevel
import ProbeAgent.Scheduler.Agent

/-!
# From a command to its work

`Invocation.work` reads the files that a command names, checks them, and says what is left to do:
print lines, run one measurement, or serve tasks.  The first fault ends it: first of the
configuration, then of its log level, then of the tasks.
-/

namespace ProbeAgent.CommandLine

/-- What a command needs of the machine that it runs on. -/
structure Machine (m : Type → Type) where
  -- The text of a file, or why it cannot be read.
  readFile : String → m (Except String String)
  -- The time that the machine's clock shows.
  now : m Instant

inductive CommandError where
  | configUnreadable (path reason : String)
  | config (error : ConfigError)
  | logLevel (level : String)
  | tasksUnreadable (path reason : String)
  | tasks (path : String) (error : DecodeError)
  | schedule (id : TaskId) (error : SchedulerError)
  | measurement (error : MeasurementError)
  -- A measurement ended without a report.
  | noResult
  -- A computation left the years that have dates.
  | breakdown
  deriving DecidableEq

/-- The cause of an error is told after it, even where its message has it already. -/
def scheduleMessage : SchedulerError → String
  | .definition (.invalidOptions method error) =>
    (DefinitionError.invalidOptions method error).message ++ ": " ++ error.message
  | error => error.message

namespace CommandError

def message : CommandError → String
  | configUnreadable path reason =>
    "Failed to read config file: " ++ Text.quoted path ++ ": " ++ reason
  | config .malformed => ConfigError.malformed.message ++ ": TOML parse error"
  | config error => error.message
  | logLevel level =>
    "Invalid log level: " ++ level ++ ": error parsing level: expected one of "
      ++ ", ".intercalate (LogLevel.all.map fun l => Text.quoted l.name) ++ ", or a number 1-5"
  | tasksUnreadable path reason =>
    "Failed to read task file: " ++ Text.quoted path ++ ": " ++ reason
  | tasks path error => "Failed to parse task file: " ++ Text.quoted path ++ ": " ++ error.message
  | schedule id error => "Failed to schedule task " ++ id.render ++ ": " ++ scheduleMessage error
  | measurement error => error.message
  | noResult => "Measurement produced no result"
  | breakdown => "date-time out of range"

def exitCode : CommandError → UInt32
  | breakdown => 101
  | _ => 1

end CommandError

inductive Work where
  | list (lines : List String)
  | once (definition : Definition) (json : Bool)
  -- Serve tasks by a corrected clock; the tick is in milliseconds.
  | serve (agent : Agent) (correction : ClockCorrection) (tick : UInt64) (json : Bool)

abbrev Attempt (m : Type → Type) (α : Type) := ExceptT CommandError m α

variable {m : Type → Type} [Monad m] {α : Type}

def attempt (result : Except CommandError α) : Attempt m α := ExceptT.mk (pure result)

/-- A computation with date-times that must not leave the years that have dates. -/
def attemptChecked : Checked α → Attempt m α
  | .ok a => return a
  | .error _ => throw .breakdown

namespace Machine

def text (machine : Machine m) (path : String) (failed : String → CommandError) :
    Attempt m String := do
  match ← (machine.readFile path : m _) with
  | .ok text => return text
  | .error reason => throw (failed reason)

def correctedNow (machine : Machine m) (correction : ClockCorrection) : m (Checked Instant) := do
  return (← machine.now).advance correction.millis

def config (machine : Machine m) : Option String → Attempt m AgentConfig
  | none => return .default
  | some path => do
    let text ← machine.text path (.configUnreadable path)
    attempt ((AgentConfig.parse text).mapError .config)

def taskList (machine : Machine m) (path : String) : Attempt m (List TaskSpec) := do
  let text ← machine.text path (.tasksUnreadable path)
  attempt ((TaskSpec.parseList text).mapError (.tasks path))

end Machine

def logLevel (config : AgentConfig) (verbosity : Nat) : Except CommandError LogLevel :=
  match verbosity with
  | 0 =>
    match LogLevel.parse? config.logging.level with
    | some level => return level
    | none => throw (.logLevel config.logging.level)
  | 1 => return .debug
  | _ => return .trace

/-- Adds a task to those of an agent.  Its options are read before the clock is. -/
def addTask (agent : Agent) (spec : TaskSpec) (now : Checked Instant) :
    Except CommandError Agent :=
  match agent.scheduler.registry.definition spec.method spec.options with
  | .error e => throw (.schedule spec.id (.definition e))
  | .ok _ =>
    match now.bind (agent.scheduler.enqueue spec) with
    | .error _ => throw .breakdown
    | .ok (.error e) => throw (.schedule spec.id e)
    | .ok (.ok scheduler) => return { agent with scheduler := scheduler }

def agentOf (machine : Machine m) (config : AgentConfig) (correction : ClockCorrection)
    (specs : List TaskSpec) : Attempt m Agent :=
  let results := ReportStore.empty config.scheduler.resultsPerTask.toNat
  let empty := Agent.empty .builtIn results config.scheduler.concurrentTasks.toNat
  specs.foldlM (fun agent spec => do
    let now ← (machine.correctedNow correction : m _)
    attempt (addTask agent spec now)) empty

def Command.work (machine : Machine m) (config : AgentConfig) : Command → Attempt m Work
  | .nextRun path start count => do
    let start ←
      match start with
      | some start => pure start
      | none => do
        let correction ← attemptChecked (ClockCorrection.ofMillis config.clock.offset.toInt)
        attemptChecked (← (machine.correctedNow correction : m _))
    let specs ← machine.taskList path
    let previews ← specs.mapM fun spec => attemptChecked (spec.preview start count)
    return .list previews.flatten
  | .ping definition json => do
    let _ ← attemptChecked (ClockCorrection.ofMillis config.clock.offset.toInt)
    return .once (.udpPing definition) json
  | .trace definition json => do
    let _ ← attemptChecked (ClockCorrection.ofMillis config.clock.offset.toInt)
    return .once (.traceroute definition) json
  | .run path json => do
    let specs ← machine.taskList path
    let correction ← attemptChecked (ClockCorrection.ofMillis config.clock.offset.toInt)
    let agent ← agentOf machine config correction specs
    return .serve agent correction config.tick json

def Invocation.work (machine : Machine m) (invocation : Invocation) : Attempt m Work := do
  let config ← machine.config invocation.config
  let _ ← attempt (logLevel config invocation.verbosity)
  invocation.command.work machine config

def measureOnce (definition : Definition) : Run (Option RunResult) :=
  (Measurement.unprepared definition.method).perform definition

def onceLines (outcome : Except MeasurementError (Option RunResult)) (json : Bool) :
    Except CommandError (List String) :=
  match outcome with
  | .error e => throw (.measurement e)
  | .ok none => throw .noResult
  | .ok (some result) => return result.display json

end ProbeAgent.CommandLine
