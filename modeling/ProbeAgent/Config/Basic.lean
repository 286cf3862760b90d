import ProbeAgent.Json.Value
import ProbeAgent.Result.Store
import ProbeAgent.Scheduler.Basic
import ProbeAgent.Toml.Document

/-!
# The configuration of an agent

A TOML document in which every setting has a default.  Settings stand in four sections; a section may
also list its settings in order.  Unknown names are ignored, and so is a date-time in place of a
section.  `AgentConfig.parse` refuses documents that are no TOML, settings of the wrong kind, and an
agent that could never run a task or never wait for an answer.
-/

namespace ProbeAgent

/-- How long a probe waits for an answer before it looks whether it was cancelled, in milliseconds. -/
def defaultPollSlice : UInt64 := 100

structure SchedulerSettings where
  -- The longest wait between two looks at the due tasks, in milliseconds.
  tick : UInt64
  -- How many tasks may run at the same time.
  concurrentTasks : UInt64
  -- How many results of a task are kept.
  resultsPerTask : UInt64
  deriving DecidableEq, Repr

structure ProbeSettings where
  -- The longest wait between two looks for a cancellation, in milliseconds.
  pollSlice : UInt64
  deriving DecidableEq, Repr

structure ClockSettings where
  -- What the clock of the machine is corrected by, in milliseconds.
  offset : Int64
  deriving DecidableEq, Repr

structure LoggingSettings where
  -- The least severe level of messages that are logged.
  level : String
  deriving DecidableEq, Repr

structure AgentConfig where
  scheduler : SchedulerSettings
  probe : ProbeSettings
  clock : ClockSettings
  logging : LoggingSettings
  deriving DecidableEq, Repr

inductive ConfigError where
  -- The text is no TOML document, or a setting is of the wrong kind.
  | malformed
  | noConcurrentTask
  | noPollSlice
  deriving DecidableEq, Repr

def ConfigError.message : ConfigError → String
  | .malformed => "Failed to parse config file"
  | .noConcurrentTask => "scheduler.max_concurrent_tasks must be at least 1"
  | .noPollSlice => "probe.poll_slice_ms must be greater than 0"

/-! ## Sections -/

/-- The settings of a section, by name or by position. -/
inductive ConfigSection where
  | named (entries : Toml.Entries)
  | listed (items : List Toml)

namespace ConfigSection

/-- A section that is left out has no settings. -/
def ofItem? : Option Toml → Option ConfigSection
  | none => some (.named [])
  | some (.table _ entries) => some (.named entries)
  | some (.inlineTable entries) => some (.named entries)
  | some (.array items) => some (.listed items)
  | some .dateTime => some (.named [])
  | some _ => none

def find? (settings : ConfigSection) (position : Nat) (name : String) : Option Toml :=
  match settings with
  | .named entries => entries.lookup name
  | .listed items => items[position]?

/-- A setting, or its default if it is left out; nothing if it is of the wrong kind. -/
def get {α : Type} (settings : ConfigSection) (position : Nat) (name : String) (default : α)
    (read : Toml → Option α) : Option α :=
  match settings.find? position name with
  | none => some default
  | some item => read item

end ConfigSection

namespace Toml

def count? : Toml → Option UInt64
  | .integer n => if 0 ≤ n then some (.ofNat n.toNat) else none
  | _ => none

def signed? : Toml → Option Int64
  | .integer n => some (.ofInt n)
  | _ => none

def string? : Toml → Option String
  | .string s => some s
  | _ => none

end Toml

/-! ## The configuration -/

namespace AgentConfig

def default : AgentConfig where
  scheduler := ⟨Scheduler.defaultTick, 4, .ofNat ReportStore.defaultCapacity⟩
  probe := ⟨defaultPollSlice⟩
  clock := ⟨0⟩
  logging := ⟨"info"⟩

def ofEntries? (entries : Toml.Entries) : Option AgentConfig := do
  let named (name : String) := ConfigSection.ofItem? (entries.lookup name)
  let scheduler ← named "scheduler"
  let probe ← named "probe"
  let clock ← named "clock"
  let logging ← named "logging"
  return {
    scheduler := {
      tick := ← scheduler.get 0 "tick_ms" default.scheduler.tick Toml.count?
      concurrentTasks := ←
        scheduler.get 1 "max_concurrent_tasks" default.scheduler.concurrentTasks Toml.count?
      resultsPerTask := ←
        scheduler.get 2 "results_per_task" default.scheduler.resultsPerTask Toml.count? }
    probe := { pollSlice := ← probe.get 0 "poll_slice_ms" default.probe.pollSlice Toml.count? }
    clock := { offset := ← clock.get 0 "offset_ms" default.clock.offset Toml.signed? }
    logging := { level := ← logging.get 0 "level" default.logging.level Toml.string? } }

def checked (config : AgentConfig) : Except ConfigError AgentConfig :=
  if config.scheduler.concurrentTasks = 0 then throw .noConcurrentTask
  else if config.probe.pollSlice = 0 then throw .noPollSlice
  else return config

def parse (text : String) : Except ConfigError AgentConfig :=
  match (Toml.parse? text).bind ofEntries? with
  | none => throw .malformed
  | some config => config.checked

/-- How long the scheduler waits at most, in milliseconds: never less than one. -/
def tick (config : AgentConfig) : UInt64 := max config.scheduler.tick 1

def toJson (config : AgentConfig) : Json := .obj [
  ("scheduler", .obj [
    ("tick_ms", .ofNat config.scheduler.tick.toNat),
    ("max_concurrent_tasks", .ofNat config.scheduler.concurrentTasks.toNat),
    ("results_per_task", .ofNat config.scheduler.resultsPerTask.toNat)]),
  ("probe", .obj [("poll_slice_ms", .ofNat config.probe.pollSlice.toNat)]),
  ("clock", .obj [("offset_ms", .int config.clock.offset.toInt)]),
  ("logging", .obj [("level", .str config.logging.level)])]

end AgentConfig

end ProbeAgent
