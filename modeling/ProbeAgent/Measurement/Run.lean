import ProbeAgent.Measurement.Definition
import ProbeAgent.Net.Session
import ProbeAgent.Text.Quoted

/-!
# Runs of measurements

A run is a session that may end in an error, such as its cancellation.
-/

namespace ProbeAgent

/-- Why a measurement did not run to its end.  A socket that fails is not an error of the run. -/
inductive MeasurementError where
  | config (reason : String)
  | notPrepared
  | cancelled
  | notImplemented (feature : String)
  -- The definition is of another method.
  | wrongDefinition (expected found : Method)
  deriving DecidableEq

def MeasurementError.message : MeasurementError → String
  | config reason => "Invalid configuration: " ++ reason
  | notPrepared => "Measurement has not been prepared"
  | cancelled => "Measurement was cancelled"
  | notImplemented feature => feature ++ " is not yet implemented"
  | wrongDefinition expected found =>
    "Definition for " ++ found.name ++ " passed to " ++ expected.name

inductive MeasurementStatus where
  -- It has not run since it was prepared.
  | unknown
  | running
  -- It has run to its end, and has a result.
  | finished
  | error
  deriving DecidableEq

def MeasurementStatus.name : MeasurementStatus → String
  | unknown => "unknown"
  | running => "running"
  | finished => "finished"
  | error => "error"

def describeEnvironment (transport : String) (cancelled : Bool) : String :=
  "MeasurementEnv \x7b transport: " ++ Text.quoted transport
    ++ ", cancelled: " ++ toString cancelled ++ " \x7d"

abbrev Run (α : Type) := ExceptT MeasurementError Session α

namespace Run

variable {α : Type}

def checkCancelled : Run Unit := do
  if ← (Session.isCancelled .done : Session Bool) then throw .cancelled

def pause (millis : UInt64) : Run Unit := do
  checkCancelled
  unless millis = 0 do
    (Session.sleep millis (.done ()) : Session Unit)
    checkCancelled

/-- Opens a socket for `use`, and closes it however that ends. -/
def withSocket (spec : SocketSpec) (refused : TransportError → α) (use : Run α) : Run α :=
  ExceptT.mk <| Session.openSocket spec fun
    | .error e => .done (.ok (refused e))
    | .ok () => use.run.bind fun result => .closeSocket (.done result)

/-- How often events are looked for before a timeout: not at all if there is no time. -/
def looks (timeout : UInt64) : Session Nat :=
  if timeout = 0 then .done 0 else .looks timeout .done

/-- Looks for events until `decide` takes one, a look fails, or there is no time left.  A
cancellation is noticed before each look. -/
def await (decide : ReceiveEvent → Option α) (failed : IoError → α) (late : α) : Nat → Run α
  | 0 => do
    checkCancelled
    return late
  | left + 1 => do
    checkCancelled
    match ← (Session.receive .done : Session _) with
    | .error e => return failed e
    | .ok event =>
      match event.bind decide with
      | some a => return a
      | none => await decide failed late left

end Run

end ProbeAgent
