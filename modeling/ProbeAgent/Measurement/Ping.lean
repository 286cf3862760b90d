import ProbeAgent.Measurement.Report
import ProbeAgent.Measurement.Run
import ProbeAgent.Text.Blank

/-!
# Ping

Each cycle opens a socket of its own, sends one datagram and waits for the first event that means
something: that the time to live was exceeded, that the destination could not be reached, or a
datagram.  What fails in a cycle is written on its probe, and the run goes on.
-/

namespace ProbeAgent

def defaultDestinationPort : UInt16 := 33434

/-- What an event means for a probe; `none` if nothing. -/
def PingResponse.ofEvent : ReceiveEvent → Option PingResponse
  | .icmp type code _ _ =>
    if type = icmpTimeExceeded ∧ code = icmpTtlExceeded then some .ttlExceeded
    else if type = icmpUnreachable then some .destinationUnreachable
    else none
  | .datagram .. => some .udpResponse

/-- The probe after an event, if the event decides it. -/
def PingProbe.decided (probe : PingProbe) (event : ReceiveEvent) : Option PingProbe := do
  let response ← PingResponse.ofEvent event
  return { probe with
    response := response
    source := event.offender
    receiveTime := some event.time }

namespace PingDefinition

def socketSpec (d : PingDefinition) : SocketSpec :=
  ⟨d.host, d.sourcePort, d.destinationPort, d.ttl⟩

def checkTarget (host : String) (count : UInt32) : Except MeasurementError Unit :=
  if (Text.trim host.toList).isEmpty then throw (.config "host must not be empty")
  else if count = 0 then throw (.config "count must be at least 1")
  else return ()

def prepared (d : PingDefinition) : Except MeasurementError PingDefinition := do
  checkTarget d.host d.count
  return { d with
    destinationPort := if d.destinationPort = 0 then defaultDestinationPort else d.destinationPort }

def awaitReply (d : PingDefinition) (probe : PingProbe) : Run PingProbe := do
  Run.await probe.decided (fun e => probe.failed ("receive: " ++ e.message)) probe
    (← Run.looks d.receiveTimeout)

def probeOnce (d : PingDefinition) : Run PingProbe := do
  Run.checkCancelled
  Run.withSocket d.socketSpec (fun e => PingProbe.unanswered.failed e.message) do
    match ← (Session.send d.payload .done : Session _) with
    | .error e => return PingProbe.unanswered.failed ("send: " ++ e.message)
    | .ok time => d.awaitReply { PingProbe.unanswered with sendTime := some time }

def probeAgain (d : PingDefinition) : Nat → Run (List PingProbe)
  | 0 => return []
  | left + 1 => do
    Run.pause d.interval
    let probe ← d.probeOnce
    return probe :: (← d.probeAgain left)

def probes (d : PingDefinition) : Run (List PingProbe) := do
  match d.count.toNat with
  | 0 => return []
  | left + 1 =>
    let probe ← d.probeOnce
    return probe :: (← d.probeAgain left)

end PingDefinition

/-! ## The measurement -/

structure Ping where
  definition : Option PingDefinition
  status : MeasurementStatus
  -- The probes of the last run.
  probes : List PingProbe

namespace Ping

def unprepared : Ping := ⟨none, .unknown, []⟩

def prepare (_ : Ping) (d : PingDefinition) : Except MeasurementError Ping := do
  return ⟨some (← d.prepared), .unknown, []⟩

/-- Runs all cycles; a run that does not get to its end leaves nothing behind. -/
def start (ping : Ping) : Session (Except MeasurementError Unit × Ping) :=
  match ping.definition with
  | none => return (.error .notPrepared, ping)
  | some d => do
    match ← d.probes.run with
    | .ok probes => return (.ok (), { ping with status := .finished, probes := probes })
    | .error e => return (.error e, { ping with status := .unknown, probes := [] })

def stop (ping : Ping) : Session (Bool × Ping) :=
  .cancel (.done (ping.status = .running ∨ !ping.probes.isEmpty,
    { ping with status := .unknown, probes := [] }))

/-- The probes of the last run, which the ping then no longer has. -/
def takeProbes (ping : Ping) : List PingProbe × Ping :=
  (ping.probes, { ping with probes := [] })

def result (ping : Ping) : Option PingReport :=
  if ping.status = .finished then some (.ofProbes ping.probes) else none

end Ping

end ProbeAgent
