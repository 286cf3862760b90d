import ProbeAgent.Measurement.Report
import ProbeAgent.Measurement.Run
import ProbeAgent.Snmp.Hosts
import ProbeAgent.Snmp.Message

/-!
# Discovery

Every address is asked for the description of its system, with each community in turn, until it
answers.  An answer counts if it is a response with the request's identity and community; what is in
it does not matter.
-/

namespace ProbeAgent

open ProbeAgent.Text (Bytes)

namespace SnmpDefinition

def agentPort : UInt16 := 161

def prepared (d : SnmpDefinition) : Except MeasurementError (List Ipv4) := do
  unless d.version = 1 ∨ d.version = 2 do
    throw (.config ("unsupported SNMP version " ++ toString d.version.toNat))
  if d.communities.isEmpty then throw (.config "community_list must not be empty")
  if d.retries = 0 then throw (.config "retries_per_ip must be at least 1")
  match Snmp.parseHosts d.hostAddresses with
  | .ok hosts => return hosts
  | .error e => throw (.config e.message)

def request (d : SnmpDefinition) (community : String) (id : Int64) : Snmp.Message :=
  .request (.ofNat (d.version.toNat - 1)) community id Snmp.systemDescription

/-- Whether a datagram answers the request with this community and identity. -/
def answers (community : String) (id : Int64) (payload : Bytes) : Bool :=
  match Snmp.Message.decode? payload with
  | some reply => reply.pdu = Snmp.getResponse ∧ reply.requestId = id ∧ reply.community = community
  | none => false

/-- What an event means for a request sent at a time: the round-trip time if it answers the request,
that there will be no answer if it is an ICMP message, and otherwise nothing. -/
def verdict (community : String) (id : Int64) (sentAt : UInt64) :
    ReceiveEvent → Option (Option UInt64)
  | .icmp .. => some none
  | .datagram payload time =>
    if answers community id payload then some (some (if sentAt ≤ time then time - sentAt else 0))
    else none

/-- Asks one address once; the answer is the round-trip time, if it answered. -/
def query (d : SnmpDefinition) (host : Ipv4) (community : String) : Run (Option UInt64) :=
  Run.withSocket ⟨host.render, 0, agentPort, 0⟩ (fun _ => none) do
    let id ← (Session.drawRequestId .done : Session Int64)
    match ← (Session.send (d.request community id).encode .done : Session _) with
    | .error _ => return none
    | .ok sentAt =>
      Run.await (verdict community id sentAt) (fun _ => none) none (← Run.looks d.waitTime)

def queryUpTo (d : SnmpDefinition) (host : Ipv4) (community : String) : Nat → Run (Option UInt64)
  | 0 => return none
  | left + 1 => do
    match ← d.query host community with
    | some rtt => return some rtt
    | none => d.queryUpTo host community left

def discover (d : SnmpDefinition) (host : Ipv4) : List String → Run (Option SnmpDevice)
  | [] => return none
  | community :: rest => do
    match ← d.queryUpTo host community d.retries.toNat with
    | some rtt => return some ⟨.v4 host, community, rtt⟩
    | none => d.discover host rest

def scanAgain (d : SnmpDefinition) : List Ipv4 → Run (List SnmpDevice)
  | [] => return []
  | host :: rest => do
    Run.pause d.sendInterval
    let device ← d.discover host d.communities
    return device.toList ++ (← d.scanAgain rest)

def scan (d : SnmpDefinition) : List Ipv4 → Run (List SnmpDevice)
  | [] => return []
  | host :: rest => do
    let device ← d.discover host d.communities
    return device.toList ++ (← d.scanAgain rest)

end SnmpDefinition

/-! ## The measurement -/

structure Discovery where
  definition : Option SnmpDefinition
  -- The addresses that the next run will scan.
  hosts : List Ipv4
  status : MeasurementStatus
  -- What the last run found.
  devices : List SnmpDevice

namespace Discovery

def unprepared : Discovery := ⟨none, [], .unknown, []⟩

def prepare (_ : Discovery) (d : SnmpDefinition) : Except MeasurementError Discovery := do
  return ⟨some d, ← d.prepared, .unknown, []⟩

/-- Scans all addresses; a run that does not get to its end leaves nothing behind. -/
def start (discovery : Discovery) : Session (Except MeasurementError Unit × Discovery) :=
  match discovery.definition with
  | none => return (.error .notPrepared, discovery)
  | some d => do
    match ← (d.scan discovery.hosts).run with
    | .ok devices => return (.ok (), { discovery with status := .finished, devices := devices })
    | .error e => return (.error e, { discovery with status := .unknown, devices := [] })

def stop (discovery : Discovery) : Session (Bool × Discovery) :=
  .cancel (.done (discovery.status = .running ∨ !discovery.devices.isEmpty,
    { discovery with status := .unknown, devices := [] }))

def result (discovery : Discovery) : Option SnmpReport :=
  if discovery.status = .finished then some ⟨discovery.devices⟩ else none

end Discovery

end ProbeAgent
