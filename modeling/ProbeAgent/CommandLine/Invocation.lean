import ProbeAgent.CommandLine.Arguments
import ProbeAgent.Measurement.Ping
import ProbeAgent.Time.Text

/-!
# Commands

`Invocation.parse` reads the arguments of the program: a command with its options, and options that
may stand before or after the command's name.  Of those, what stands after the name wins.
-/

namespace ProbeAgent.CommandLine

inductive Command where
  -- Serve a list of tasks.
  | run (tasks : String) (json : Bool)
  | ping (definition : PingDefinition) (json : Bool)
  | trace (definition : TracerouteDefinition) (json : Bool)
  -- List the next runs of tasks, from a time or from now on.
  | nextRun (tasks : String) (start : Option Instant) (count : Nat)

structure Invocation where
  -- The file that the configuration is read from.
  config : Option String
  -- How often more log messages were asked for.
  verbosity : Nat
  command : Command

/-! ## Options of all commands -/

structure CommonOptions where
  config : Option String
  verbosity : Nat

namespace CommonOptions

def none : CommonOptions := ⟨.none, 0⟩

def options : List (OptionSpec CommonOptions) := [
  ⟨"config", .none, .value fun text o => (fun p => { o with config := some p }) <$> path? text⟩,
  ⟨"verbose", 'v', .tally fun o => { o with verbosity := o.verbosity + 1 }⟩,
  ⟨"help", 'h', .explain⟩]

/-- What was given before a command's name, unless it was given again after it. -/
def orElse (after before : CommonOptions) : CommonOptions where
  config := after.config.or before.config
  verbosity := if after.verbosity = 0 then before.verbosity else after.verbosity

end CommonOptions

def commandGrammar {σ : Type} (options : List (OptionSpec σ)) (operands : List (String → σ → σ)) :
    Grammar (CommonOptions × σ) where
  options := CommonOptions.options.map (·.within Prod.fst fun o s => (o, s.2))
    ++ options.map (·.within Prod.snd fun o s => (s.1, o))
  operands := operands.map fun set text s => (s.1, set text s.2)

/-! ## Options of one command -/

structure TaskOptions where
  tasks : Option String
  json : Bool
  start : Option Instant
  count : Nat

namespace TaskOptions

def defaultCount : Nat := 5

def none : TaskOptions := ⟨.none, false, .none, defaultCount⟩

def tasksOption : OptionSpec TaskOptions :=
  ⟨"tasks", .none, .value fun text o => (fun p => { o with tasks := some p }) <$> path? text⟩

def runGrammar : Grammar (CommonOptions × TaskOptions) :=
  commandGrammar [tasksOption, ⟨"json", .none, .flag fun o => { o with json := true }⟩] []

def nextRunGrammar : Grammar (CommonOptions × TaskOptions) :=
  commandGrammar [
    tasksOption,
    ⟨"from", .none, .value fun text o =>
      (fun t => { o with start := some t }) <$> (Instant.parse text).toOption⟩,
    ⟨.none, 'n', .value fun text o =>
      (fun n => { o with count := n }) <$> unsigned? (Nat.pow 2 64 - 1) text⟩] []

def run? (o : TaskOptions) : Option Command := o.tasks.map (.run · o.json)

def nextRun? (o : TaskOptions) : Option Command := o.tasks.map (.nextRun · o.start o.count)

end TaskOptions

structure ProbeOptions where
  host : Option String
  count : UInt32
  ttl : UInt8
  timeout : UInt64
  interval : UInt64
  port : UInt16
  json : Bool

namespace ProbeOptions

def none : ProbeOptions where
  host := .none
  count := defaultCount
  ttl := 0
  timeout := defaultReceiveTimeout
  interval := defaultInterval
  port := defaultDestinationPort
  json := false

def setHost (text : String) (o : ProbeOptions) : ProbeOptions := { o with host := some text }

def sharedOptions : List (OptionSpec ProbeOptions) := [
  ⟨"count", 'c', .value fun text o =>
    (fun n => { o with count := .ofNat n }) <$> signed? (Nat.pow 2 32 - 1) text⟩,
  ⟨"timeout-ms", .none, .value fun text o =>
    (fun n => { o with timeout := .ofNat n }) <$> unsigned? (Nat.pow 2 64 - 1) text⟩,
  ⟨"json", .none, .flag fun o => { o with json := true }⟩]

def traceGrammar : Grammar (CommonOptions × ProbeOptions) :=
  commandGrammar sharedOptions [setHost]

def pingGrammar : Grammar (CommonOptions × ProbeOptions) :=
  commandGrammar (sharedOptions ++ [
    ⟨"ttl", .none, .value fun text o =>
      (fun n => { o with ttl := .ofNat n }) <$> signed? 255 text⟩,
    ⟨"interval-ms", 'i', .value fun text o =>
      (fun n => { o with interval := .ofNat n }) <$> unsigned? (Nat.pow 2 64 - 1) text⟩,
    ⟨"port", 'p', .value fun text o =>
      (fun n => { o with port := .ofNat n }) <$> signed? 65535 text⟩]) [setHost]

def ping? (o : ProbeOptions) : Option Command := do
  let host ← o.host
  return .ping { PingDefinition.ofHost host with
    count := o.count
    ttl := o.ttl
    receiveTimeout := o.timeout
    interval := o.interval
    destinationPort := o.port } o.json

def trace? (o : ProbeOptions) : Option Command := do
  let host ← o.host
  return .trace { TracerouteDefinition.ofHost host with
    count := o.count
    receiveTimeout := o.timeout } o.json

end ProbeOptions

/-! ## The program -/

def commandNames : List String := ["run", "ping", "trace", "next-run"]

def explainCommand : List String → Refusal
  | [] => .explained
  | [name] => if name = "help" || commandNames.contains name then .explained else .misused
  | _ => .misused

/-- A command from its arguments, with what was given before its name. -/
def finish {σ : Type} (grammar : Grammar (CommonOptions × σ)) (empty : σ)
    (command? : σ → Option Command) (before : CommonOptions) (arguments : List String) :
    Except Refusal Invocation := do
  let (common, settings) ← grammar.readAll arguments (grammar.begin (.none, empty))
  match command? settings with
  | none => throw .misused
  | some command =>
    let common := common.orElse before
    return ⟨common.config, common.verbosity, command⟩

def programGrammar : Grammar CommonOptions :=
  ⟨CommonOptions.options ++ [⟨"version", 'V', .explain⟩], []⟩

def Invocation.parse (arguments : List String) : Except Refusal Invocation := do
  let (before, name, rest) ← programGrammar.readOptions arguments (programGrammar.begin .none)
  match name with
  | "run" => finish TaskOptions.runGrammar .none TaskOptions.run? before rest
  | "next-run" => finish TaskOptions.nextRunGrammar .none TaskOptions.nextRun? before rest
  | "ping" => finish ProbeOptions.pingGrammar .none ProbeOptions.ping? before rest
  | "trace" => finish ProbeOptions.traceGrammar .none ProbeOptions.trace? before rest
  | "help" => throw (explainCommand rest)
  | _ => throw .misused

end ProbeAgent.CommandLine
