import ProbeAgent.Measurement.Ping

/-!
# Traceroute

One ping run for each time to live, from 1 up, until a probe gets to the destination or the route
has 20 hops.
-/

namespace ProbeAgent

def maxHops : Nat := 20

namespace TracerouteDefinition

/-- The definition as it will be run: ports that it leaves open are drawn. -/
def prepared (d : TracerouteDefinition) (ports : DrawnPorts) :
    Except MeasurementError TracerouteDefinition := do
  unless d.pingType = .udp do throw (.notImplemented (d.pingType.label ++ " traceroute"))
  PingDefinition.checkTarget d.host d.count
  return { d with
    destinationPort := if d.destinationPort = 0 then ports.destination else d.destinationPort
    sourcePort := if d.sourcePort = 0 then ports.source else d.sourcePort }

def hop (d : TracerouteDefinition) (ttl : UInt8) : Run (List Hop) := do
  let ping ← liftM (m := Except MeasurementError) (d.hopPing ttl).prepared
  return (← ping.probes).map (Hop.mk ttl)

def endsRoute (hops : List Hop) : Bool :=
  hops.any (·.probe.response.reachedDestination)

/-- The hops from a time to live on, at most so many. -/
def hopsFrom (d : TracerouteDefinition) (ttl : Nat) : (left : Nat) → Run (List Hop)
  | 0 => return []
  | left + 1 => do
    let hops ← d.hop (.ofNat ttl)
    if endsRoute hops then return hops
    else return hops ++ (← d.hopsFrom (ttl + 1) left)

def hops (d : TracerouteDefinition) : Run (List Hop) :=
  d.hopsFrom 1 maxHops

end TracerouteDefinition

/-! ## The measurement -/

structure Traceroute where
  definition : Option TracerouteDefinition
  status : MeasurementStatus
  -- The probes of the last run.
  hops : List Hop
  -- Whether the last run got to the destination.
  endOfRoute : Bool

namespace Traceroute

def unprepared : Traceroute := ⟨none, .unknown, [], false⟩

def prepare (_ : Traceroute) (ports : DrawnPorts) (d : TracerouteDefinition) :
    Except MeasurementError Traceroute := do
  return ⟨some (← d.prepared ports), .unknown, [], false⟩

/-- Runs hop by hop; a run that does not get to its end leaves nothing behind. -/
def start (route : Traceroute) : Session (Except MeasurementError Unit × Traceroute) :=
  match route.definition with
  | none => return (.error .notPrepared, route)
  | some d => do
    match ← d.hops.run with
    | .ok hops =>
      return (.ok (), { route with
        status := .finished
        hops := hops
        endOfRoute := TracerouteDefinition.endsRoute hops })
    | .error e =>
      return (.error e, { route with
        status := if e = .cancelled then .unknown else .error
        hops := []
        endOfRoute := false })

def stop (route : Traceroute) : Session (Bool × Traceroute) :=
  .cancel (.done (route.status = .running ∨ !route.hops.isEmpty,
    { route with status := .unknown, hops := [], endOfRoute := false }))

def result (route : Traceroute) : Option TracerouteReport :=
  if route.status = .finished then some (.ofHops route.hops) else none

end Traceroute

end ProbeAgent
