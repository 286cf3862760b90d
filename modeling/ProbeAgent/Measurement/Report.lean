import ProbeAgent.Measurement.Probe
import ProbeAgent.Measurement.Statistics

/-!
# Results of one run

What a ping, a traceroute or a discovery reports.  A `RunResult` is any of them; it is written
without a tag and read as the first kind that fits, in this order.
-/

namespace ProbeAgent

/-! ## Ping -/

structure PingReport where
  -- Round-trip times of the answered probes, in the order of sending.
  rtts : List UInt64
  probes : List PingProbe
  statistics : RttStatistics

namespace PingReport

def ofProbes (probes : List PingProbe) : PingReport :=
  let rtts := probes.filterMap PingProbe.rtt?
  ⟨rtts, probes, .ofSamples rtts⟩

def toJson (r : PingReport) : Json := .obj [
  ("rtts", .arr (r.rtts.map fun t => .int t.toNat)),
  ("probes", .arr (r.probes.map PingProbe.toJson)),
  ("statistics", r.statistics.toJson)]

def rules : List Doc.FieldRule := [
  .of "rtts" .refused (Doc.list Doc.uint64),
  .of "probes" .refused (Doc.list PingProbe.ofDoc),
  .of "statistics" .refused RttStatistics.ofDoc]

def ofDoc (d : Doc) : Decoded PingReport := do
  let fields ← d.record .value "PingReport" rules
  return {
    rtts := ← fields.require "rtts" (Doc.list Doc.uint64)
    probes := ← fields.require "probes" (Doc.list PingProbe.ofDoc)
    statistics := ← fields.require "statistics" RttStatistics.ofDoc }

end PingReport

/-! ## Traceroute -/

structure Hop where
  ttl : UInt8
  probe : PingProbe
  deriving DecidableEq

/-- A probe as the report of a hop shows it. -/
structure HopPing where
  response : PingResponse
  rtt : Option UInt64
  deriving DecidableEq

/-- The probes with one time to live. -/
structure HopReport where
  -- Index of the group, from 0.
  hop : UInt64
  -- The first node that answered with an error.
  address : Option IpAddress
  pings : List HopPing
  -- Index of the group, from 1.
  ttl : UInt64
  rttMin : UInt64
  rttMax : UInt64
  rttAverage : Float
  rttDeviation : Float
  rttCount : UInt64

structure TracerouteReport where
  hopCount : UInt64
  results : List HopReport

namespace HopPing

def ofProbe (p : PingProbe) : HopPing := ⟨p.response, p.rtt?⟩

def toJson (p : HopPing) : Json := .obj [
  ("response", p.response.toJson),
  ("rtt", PingProbe.microsJson p.rtt)]

def rules : List Doc.FieldRule := [
  .of "response" .refused PingResponse.ofDoc,
  .of "rtt" .emptyInObject (Doc.option Doc.uint64)]

def ofDoc (d : Doc) : Decoded HopPing := do
  let fields ← d.record .value "HopPing" rules
  return {
    response := ← fields.require "response" PingResponse.ofDoc
    rtt := ← fields.get "rtt" none (Doc.option Doc.uint64) }

end HopPing

namespace HopReport

def ofGroup (index : Nat) (group : List Hop) : HopReport :=
  let statistics := RttStatistics.ofSamples (group.filterMap (·.probe.rtt?))
  { hop := .ofNat index
    address := group.findSome? (·.probe.source)
    pings := group.map fun h => .ofProbe h.probe
    ttl := .ofNat (index + 1)
    rttMin := statistics.min
    rttMax := statistics.max
    rttAverage := statistics.average
    rttDeviation := statistics.deviation
    rttCount := statistics.count }

def toJson (r : HopReport) : Json := .obj (
  [("hop", .int r.hop.toNat)]
    ++ Json.optionalField "address" (r.address.map IpAddress.toJson)
    ++ [("pings", .arr (r.pings.map HopPing.toJson)),
      ("ttl", .int r.ttl.toNat),
      ("rtt_min", .int r.rttMin.toNat),
      ("rtt_max", .int r.rttMax.toNat),
      ("rtt_avg", .ofFloat r.rttAverage),
      ("rtt_stdev", .ofFloat r.rttDeviation),
      ("rtt_count", .int r.rttCount.toNat)])

def rules : List Doc.FieldRule := [
  .of "hop" .refused Doc.count,
  .of "address" .allowed (Doc.option IpAddress.ofDoc),
  .of "pings" .refused (Doc.list HopPing.ofDoc),
  .of "ttl" .refused Doc.count,
  .of "rtt_min" .refused Doc.uint64,
  .of "rtt_max" .refused Doc.uint64,
  .of "rtt_avg" .refused Doc.double,
  .of "rtt_stdev" .refused Doc.double,
  .of "rtt_count" .refused Doc.count]

def ofDoc (d : Doc) : Decoded HopReport := do
  let fields ← d.record .value "HopReport" rules
  return {
    hop := ← fields.require "hop" Doc.count
    address := ← fields.get "address" none (Doc.option IpAddress.ofDoc)
    pings := ← fields.require "pings" (Doc.list HopPing.ofDoc)
    ttl := ← fields.require "ttl" Doc.count
    rttMin := ← fields.require "rtt_min" Doc.uint64
    rttMax := ← fields.require "rtt_max" Doc.uint64
    rttAverage := ← fields.require "rtt_avg" Doc.double
    rttDeviation := ← fields.require "rtt_stdev" Doc.double
    rttCount := ← fields.require "rtt_count" Doc.count }

end HopReport

namespace TracerouteReport

/-- Splits hops into the longest runs with the same time to live. -/
def groupByTtl (hops : List Hop) : List (List Hop) :=
  hops.splitBy fun a b => a.ttl == b.ttl

def ofHops (hops : List Hop) : TracerouteReport :=
  let results := (groupByTtl hops).mapIdx HopReport.ofGroup
  ⟨.ofNat results.length, results⟩

def toJson (r : TracerouteReport) : Json := .obj [
  ("hop_count", .int r.hopCount.toNat),
  ("results", .arr (r.results.map HopReport.toJson))]

def rules : List Doc.FieldRule := [
  .of "hop_count" .refused Doc.count,
  .of "results" .refused (Doc.list HopReport.ofDoc)]

def ofDoc (d : Doc) : Decoded TracerouteReport := do
  let fields ← d.record .value "TracerouteReport" rules
  return {
    hopCount := ← fields.require "hop_count" Doc.count
    results := ← fields.require "results" (Doc.list HopReport.ofDoc) }

end TracerouteReport

/-! ## Discovery -/

structure SnmpDevice where
  address : IpAddress
  community : String
  -- Round-trip time of the answered request.
  rtt : UInt64
  deriving DecidableEq

structure SnmpReport where
  -- In the order of the scan.
  devices : List SnmpDevice
  deriving DecidableEq

namespace SnmpDevice

def toJson (d : SnmpDevice) : Json := .obj [
  ("address", d.address.toJson),
  ("community", .str d.community),
  ("rtt", .int d.rtt.toNat)]

def rules : List Doc.FieldRule := [
  .of "address" .refused IpAddress.ofDoc,
  .of "community" .refused Doc.text,
  .of "rtt" .refused Doc.uint64]

def ofDoc (d : Doc) : Decoded SnmpDevice := do
  let fields ← d.record .value "SnmpDevice" rules
  return {
    address := ← fields.require "address" IpAddress.ofDoc
    community := ← fields.require "community" Doc.text
    rtt := ← fields.require "rtt" Doc.uint64 }

end SnmpDevice

namespace SnmpReport

def toJson (r : SnmpReport) : Json := .obj [
  ("devices", .arr (r.devices.map SnmpDevice.toJson))]

def rules : List Doc.FieldRule := [.of "devices" .refused (Doc.list SnmpDevice.ofDoc)]

def ofDoc (d : Doc) : Decoded SnmpReport := do
  let fields ← d.record .value "SnmpReport" rules
  return { devices := ← fields.require "devices" (Doc.list SnmpDevice.ofDoc) }

end SnmpReport

/-! ## Any result -/

inductive RunResult where
  | ping (r : PingReport)
  | traceroute (r : TracerouteReport)
  | snmp (r : SnmpReport)

namespace RunResult

def toJson : RunResult → Json
  | ping r => r.toJson
  | traceroute r => r.toJson
  | snmp r => r.toJson

/-- The first kind that fits.  The document must be readable as a whole before any is tried. -/
def ofDoc (d : Doc) : Decoded RunResult := do
  let _ ← d.jsonValue
  match PingReport.ofDoc d with
  | .ok r => return ping r
  | .error _ =>
    match TracerouteReport.ofDoc d with
    | .ok r => return traceroute r
    | .error _ =>
      match SnmpReport.ofDoc d with
      | .ok r => return snmp r
      | .error _ => throw (.noVariantFits "MeasurementResult")

end RunResult

end ProbeAgent
