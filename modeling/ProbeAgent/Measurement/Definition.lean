import ProbeAgent.Json.Decode

/-!
# Definitions of measurements

A definition says what a measurement does.  It is read from the options of a task and written with
the same keys; what the options leave out has a default.  Durations are whole milliseconds.
-/

namespace ProbeAgent

inductive Method where
  | udpPing
  | traceroute
  | snmp
  deriving DecidableEq, Repr

def Method.name : Method → String
  | udpPing => "udpping"
  | traceroute => "traceroute"
  | snmp => "snmp"

def defaultCount : UInt32 := 3

/-- Milliseconds between two probes, if the options do not say. -/
def defaultInterval : UInt64 := 200

/-- Milliseconds to wait for a reply, if the options do not say. -/
def defaultReceiveTimeout : UInt64 := 1000

def defaultPayload : List UInt8 := List.replicate 32 0

/-! ## Ping -/

structure PingDefinition where
  host : String
  count : UInt32
  interval : UInt64
  receiveTimeout : UInt64
  -- Time to live of the probes; 0 leaves it to the system.
  ttl : UInt8
  -- 0 stands for the port that probes usually go to.
  destinationPort : UInt16
  -- 0 leaves it to the system.
  sourcePort : UInt16
  payload : List UInt8
  deriving DecidableEq

/-- Options that name a host may call it `host` or `url`. -/
def hostRule : Doc.FieldRule :=
  { Doc.FieldRule.of "host" .refused Doc.text with aliases := ["url"] }

namespace PingDefinition

def ofHost (host : String) : PingDefinition where
  host := host
  count := defaultCount
  interval := defaultInterval
  receiveTimeout := defaultReceiveTimeout
  ttl := 0
  destinationPort := 0
  sourcePort := 0
  payload := defaultPayload

def rules : List Doc.FieldRule := [
  hostRule,
  .of "count" .allowed Doc.uint32,
  .of "interval" .allowed Doc.uint64,
  .of "receive_timeout" .allowed Doc.uint64,
  .of "ttl" .allowed Doc.uint8,
  .of "destination_port" .allowed Doc.uint16,
  .of "source_port" .allowed Doc.uint16,
  .of "payload" .allowed (Doc.list Doc.uint8)]

def ofDoc (d : Doc) : Decoded PingDefinition := do
  let fields ← d.record .value "UdpPingDefinition" rules
  return {
    host := ← fields.require "host" Doc.text
    count := ← fields.get "count" defaultCount Doc.uint32
    interval := ← fields.get "interval" defaultInterval Doc.uint64
    receiveTimeout := ← fields.get "receive_timeout" defaultReceiveTimeout Doc.uint64
    ttl := ← fields.get "ttl" 0 Doc.uint8
    destinationPort := ← fields.get "destination_port" 0 Doc.uint16
    sourcePort := ← fields.get "source_port" 0 Doc.uint16
    payload := ← fields.get "payload" defaultPayload (Doc.list Doc.uint8) }

def toJson (d : PingDefinition) : Json := .obj [
  ("host", .str d.host),
  ("count", .int d.count.toNat),
  ("interval", .int d.interval.toNat),
  ("receive_timeout", .int d.receiveTimeout.toNat),
  ("ttl", .int d.ttl.toNat),
  ("destination_port", .int d.destinationPort.toNat),
  ("source_port", .int d.sourcePort.toNat),
  ("payload", .arr (d.payload.map fun b => .int b.toNat))]

end PingDefinition

/-! ## Traceroute -/

inductive PingType where
  | udp
  | tcp
  | system
  deriving DecidableEq, Repr

namespace PingType

def label : PingType → String
  | udp => "UDP"
  | tcp => "TCP"
  | system => "System"

def wireName : PingType → String
  | udp => "udp"
  | tcp => "tcp"
  | system => "system"

def toJson (t : PingType) : Json := .str t.wireName

def ofDoc (d : Doc) : Decoded PingType :=
  d.choice .value ([udp, tcp, system].map fun t => (t.wireName, t))

end PingType

structure TracerouteDefinition where
  host : String
  count : UInt32
  interval : UInt64
  receiveTimeout : UInt64
  -- 0 stands for a port drawn when the measurement is prepared.
  destinationPort : UInt16
  -- 0 stands for a port drawn when the measurement is prepared.
  sourcePort : UInt16
  payload : List UInt8
  pingType : PingType
  deriving DecidableEq

namespace TracerouteDefinition

def ofHost (host : String) : TracerouteDefinition where
  host := host
  count := defaultCount
  interval := defaultInterval
  receiveTimeout := defaultReceiveTimeout
  destinationPort := 0
  sourcePort := 0
  payload := defaultPayload
  pingType := .udp

def rules : List Doc.FieldRule := [
  hostRule,
  .of "count" .allowed Doc.uint32,
  .of "interval" .allowed Doc.uint64,
  .of "receive_timeout" .allowed Doc.uint64,
  .of "destination_port" .allowed Doc.uint16,
  .of "source_port" .allowed Doc.uint16,
  .of "payload" .allowed (Doc.list Doc.uint8),
  .of "type" .allowed PingType.ofDoc]

def ofDoc (d : Doc) : Decoded TracerouteDefinition := do
  let fields ← d.record .value "TracerouteDefinition" rules
  return {
    host := ← fields.require "host" Doc.text
    count := ← fields.get "count" defaultCount Doc.uint32
    interval := ← fields.get "interval" defaultInterval Doc.uint64
    receiveTimeout := ← fields.get "receive_timeout" defaultReceiveTimeout Doc.uint64
    destinationPort := ← fields.get "destination_port" 0 Doc.uint16
    sourcePort := ← fields.get "source_port" 0 Doc.uint16
    payload := ← fields.get "payload" defaultPayload (Doc.list Doc.uint8)
    pingType := ← fields.get "type" .udp PingType.ofDoc }

def toJson (d : TracerouteDefinition) : Json := .obj [
  ("host", .str d.host),
  ("count", .int d.count.toNat),
  ("interval", .int d.interval.toNat),
  ("receive_timeout", .int d.receiveTimeout.toNat),
  ("destination_port", .int d.destinationPort.toNat),
  ("source_port", .int d.sourcePort.toNat),
  ("payload", .arr (d.payload.map fun b => .int b.toNat)),
  ("type", d.pingType.toJson)]

/-- The ping that probes one hop. -/
def hopPing (d : TracerouteDefinition) (ttl : UInt8) : PingDefinition where
  host := d.host
  count := d.count
  interval := d.interval
  receiveTimeout := d.receiveTimeout
  ttl := ttl
  destinationPort := d.destinationPort
  sourcePort := d.sourcePort
  payload := d.payload

end TracerouteDefinition

/-! ## Discovery -/

structure SnmpDefinition where
  -- Communities tried for every host, in order.
  communities : List String
  -- Requests for every host and community.
  retries : UInt32
  -- 1, or 2 for the version with community names.
  version : UInt8
  -- An address, a range, or a block.
  hostAddresses : String
  -- Milliseconds between two hosts.
  sendInterval : UInt64
  -- Milliseconds to wait for a reply.
  waitTime : UInt64
  deriving DecidableEq

namespace SnmpDefinition

def defaultCommunities : List String := ["public"]

def ofHosts (hostAddresses : String) : SnmpDefinition where
  communities := defaultCommunities
  retries := 1
  version := 2
  hostAddresses := hostAddresses
  sendInterval := 0
  waitTime := 1000

def rules : List Doc.FieldRule := [
  .of "community_list" .allowed (Doc.list Doc.text),
  .of "retries_per_ip" .allowed Doc.uint32,
  .of "snmp_version" .allowed Doc.uint8,
  .of "host_addresses" .refused Doc.text,
  .of "send_interval" .allowed Doc.uint64,
  .of "wait_time" .allowed Doc.uint64]

def ofDoc (d : Doc) : Decoded SnmpDefinition := do
  let fields ← d.record .value "SnmpDefinition" rules
  return {
    communities := ← fields.get "community_list" defaultCommunities (Doc.list Doc.text)
    retries := ← fields.get "retries_per_ip" 1 Doc.uint32
    version := ← fields.get "snmp_version" 2 Doc.uint8
    hostAddresses := ← fields.require "host_addresses" Doc.text
    sendInterval := ← fields.get "send_interval" 0 Doc.uint64
    waitTime := ← fields.get "wait_time" 1000 Doc.uint64 }

def toJson (d : SnmpDefinition) : Json := .obj [
  ("community_list", .arr (d.communities.map .str)),
  ("retries_per_ip", .int d.retries.toNat),
  ("snmp_version", .int d.version.toNat),
  ("host_addresses", .str d.hostAddresses),
  ("send_interval", .int d.sendInterval.toNat),
  ("wait_time", .int d.waitTime.toNat)]

end SnmpDefinition

/-! ## Any definition -/

inductive Definition where
  | udpPing (d : PingDefinition)
  | traceroute (d : TracerouteDefinition)
  | snmp (d : SnmpDefinition)
  deriving DecidableEq

namespace Definition

def method : Definition → Method
  | udpPing _ => .udpPing
  | traceroute _ => .traceroute
  | snmp _ => .snmp

/-- The host that the probes go to, if there is a single one. -/
def host : Definition → Option String
  | udpPing d => some d.host
  | traceroute d => some d.host
  | snmp _ => none

def toJson : Definition → Json
  | udpPing d => d.toJson
  | traceroute d => d.toJson
  | snmp d => d.toJson

def ofOptions (method : Method) (options : Json) : Decoded Definition :=
  match method with
  | .udpPing => decodeValue (fun d => udpPing <$> PingDefinition.ofDoc d) options
  | .traceroute => decodeValue (fun d => traceroute <$> TracerouteDefinition.ofDoc d) options
  | .snmp => decodeValue (fun d => snmp <$> SnmpDefinition.ofDoc d) options

def withDefaults : Definition → Definition
  | udpPing d => udpPing (.ofHost d.host)
  | traceroute d => traceroute (.ofHost d.host)
  | snmp d => snmp (.ofHosts d.hostAddresses)

end Definition

inductive DefinitionError where
  | unknownMethod (name : String)
  | invalidOptions (method : String) (error : DecodeError)
  deriving DecidableEq

def DefinitionError.message : DefinitionError → String
  | unknownMethod name => "Unknown measurement method: " ++ name
  | invalidOptions method error => "Invalid options for " ++ method ++ ": " ++ error.message

end ProbeAgent
