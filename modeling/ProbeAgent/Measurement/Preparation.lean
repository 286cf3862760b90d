import ProbeAgent.Measurement.Basic

/-!
# Preparing in place

A measurement is prepared in place: its fields are set one after the other, and what has been set
stays so if a later step fails.  `Measurement.prepare` says what comes out of it for a new measurement
and the ports that were drawn.
-/

namespace ProbeAgent

/-- Steps that change something in place, and may draw ports. -/
abbrev Preparation (σ : Type) := ExceptT MeasurementError (StateT σ Session)

namespace Ping

def prepareInPlace (d : PingDefinition) : Preparation Ping Unit := do
  let accepted ← liftM (m := Except MeasurementError) d.prepared
  modify fun ping => { ping with definition := some accepted }
  modify fun ping => { ping with probes := [] }
  modify fun ping => { ping with status := .unknown }

end Ping

namespace TracerouteDefinition

def check (d : TracerouteDefinition) : Except MeasurementError Unit := do
  unless d.pingType = .udp do throw (.notImplemented (d.pingType.label ++ " traceroute"))
  PingDefinition.checkTarget d.host d.count

/-- The definition with ports for those that it leaves open. -/
def withPorts (d : TracerouteDefinition) (ports : DrawnPorts) : TracerouteDefinition :=
  { d with
    destinationPort := if d.destinationPort = 0 then ports.destination else d.destinationPort
    sourcePort := if d.sourcePort = 0 then ports.source else d.sourcePort }

end TracerouteDefinition

namespace Traceroute

def prepareInPlace (d : TracerouteDefinition) : Preparation Traceroute Unit := do
  liftM (m := Except MeasurementError) d.check
  let ports ← (Session.drawPorts .done : Session DrawnPorts)
  modify fun route => { route with definition := some (d.withPorts ports) }
  modify fun route => { route with hops := [] }
  modify fun route => { route with endOfRoute := false }
  modify fun route => { route with status := .unknown }

end Traceroute

namespace Discovery

def prepareInPlace (d : SnmpDefinition) : Preparation Discovery Unit := do
  let hosts ← liftM (m := Except MeasurementError) d.prepared
  modify fun discovery => { discovery with hosts := hosts }
  modify fun discovery => { discovery with definition := some d }
  modify fun discovery => { discovery with devices := [] }
  modify fun discovery => { discovery with status := .unknown }

end Discovery

namespace Measurement

/-- Checks and keeps a definition: how that ends, and the measurement that is left. -/
def prepareInPlace (measurement : Measurement) (definition : Definition) :
    Session (Except MeasurementError Unit × Measurement) :=
  match measurement, definition with
  | ping m, .udpPing d =>
    (fun (r, m) => (r, ping m)) <$> (Ping.prepareInPlace d).run.run m
  | traceroute m, .traceroute d =>
    (fun (r, m) => (r, traceroute m)) <$> (Traceroute.prepareInPlace d).run.run m
  | snmp m, .snmp d =>
    (fun (r, m) => (r, snmp m)) <$> (Discovery.prepareInPlace d).run.run m
  | _, _ => return (.error (.wrongDefinition measurement.method definition.method), measurement)

end Measurement

end ProbeAgent
