import ProbeAgent.Measurement.Discovery
import ProbeAgent.Measurement.Traceroute

/-!
# Measurements

All measurements live the same way: `prepare` checks and keeps a definition and does nothing else,
`start` runs it to its end, `result` is the report of a run that got there, `stop` drops it.
-/

namespace ProbeAgent

inductive Measurement where
  | ping (m : Ping)
  | traceroute (m : Traceroute)
  | snmp (m : Discovery)

namespace Measurement

def unprepared : Method → Measurement
  | .udpPing => ping .unprepared
  | .traceroute => traceroute .unprepared
  | .snmp => snmp .unprepared

def method : Measurement → Method
  | ping _ => .udpPing
  | traceroute _ => .traceroute
  | snmp _ => .snmp

def status : Measurement → MeasurementStatus
  | ping m => m.status
  | traceroute m => m.status
  | snmp m => m.status

/-- Checks and keeps a definition; what an earlier run left is dropped. -/
def prepare (measurement : Measurement) (ports : DrawnPorts) (definition : Definition) :
    Except MeasurementError Measurement :=
  match measurement, definition with
  | ping m, .udpPing d => ping <$> m.prepare d
  | traceroute m, .traceroute d => traceroute <$> m.prepare ports d
  | snmp m, .snmp d => snmp <$> m.prepare d
  | _, _ => throw (.wrongDefinition measurement.method definition.method)

def start : Measurement → Session (Except MeasurementError Unit × Measurement)
  | ping m => (fun (r, m) => (r, ping m)) <$> m.start
  | traceroute m => (fun (r, m) => (r, traceroute m)) <$> m.start
  | snmp m => (fun (r, m) => (r, snmp m)) <$> m.start

/-- Cancels the run and drops what it gathered; the answer is whether there was anything to drop. -/
def stop : Measurement → Session (Bool × Measurement)
  | ping m => (fun (r, m) => (r, ping m)) <$> m.stop
  | traceroute m => (fun (r, m) => (r, traceroute m)) <$> m.stop
  | snmp m => (fun (r, m) => (r, snmp m)) <$> m.stop

/-- The report of a run that got to its end. -/
def result : Measurement → Option RunResult
  | ping m => m.result.map .ping
  | traceroute m => m.result.map .traceroute
  | snmp m => m.result.map .snmp

def perform (measurement : Measurement) (definition : Definition) : Run (Option RunResult) := do
  let ports ← (Session.drawPorts .done : Session DrawnPorts)
  let prepared ← liftM (measurement.prepare ports definition)
  let (outcome, finished) ← (prepared.start : Session _)
  liftM outcome
  return finished.result

end Measurement

end ProbeAgent
