import ProbeAgent.Json.Decode
import ProbeAgent.Net.Address

/-!
# Probes

A probe is one datagram and what came back for it.  Times are microseconds since 1970.
-/

namespace ProbeAgent

inductive PingResponse where
  -- A router on the way dropped the datagram.
  | ttlExceeded
  -- The destination refused the datagram.
  | destinationUnreachable
  -- Nothing came in time.
  | timeout
  -- The destination sent a datagram.
  | udpResponse
  -- The probe failed here.
  | error
  deriving DecidableEq, Repr

namespace PingResponse

def reachedDestination : PingResponse → Bool
  | destinationUnreachable | udpResponse => true
  | _ => false

def wireName : PingResponse → String
  | ttlExceeded => "ttl_exceeded"
  | destinationUnreachable => "destination_unreachable"
  | timeout => "timeout"
  | udpResponse => "udp_response"
  | error => "error"

def all : List PingResponse := [ttlExceeded, destinationUnreachable, timeout, udpResponse, error]

def toJson (r : PingResponse) : Json := .str r.wireName

def ofDoc (d : Doc) : Decoded PingResponse :=
  d.choice .value (all.map fun r => (r.wireName, r))

end PingResponse

structure PingProbe where
  sendTime : Option UInt64
  receiveTime : Option UInt64
  -- The node that reported an error.
  source : Option IpAddress
  response : PingResponse
  -- What failed here, for `PingResponse.error`.
  error : Option String
  deriving DecidableEq

namespace IpAddress

def toJson (a : IpAddress) : Json := .str a.render

def ofDoc : Doc → Decoded IpAddress
  | .str s =>
    match parse? s with
    | some a => return a
    | none => throw .address
  | d => d.wrongType "IP address"

end IpAddress

namespace PingProbe

def unanswered : PingProbe := ⟨none, none, none, .timeout, none⟩

def failed (p : PingProbe) (error : String) : PingProbe :=
  { p with response := .error, error := some error }

/-- The round-trip time of an answered probe whose times are known and in order. -/
def rtt? (p : PingProbe) : Option UInt64 :=
  match p.response with
  | .timeout | .error => none
  | _ => do
    let received ← p.receiveTime
    let sent ← p.sendTime
    if sent ≤ received then some (received - sent) else none

def microsJson (t : Option UInt64) : Json := .ofOption (t.map fun t => .int t.toNat)

def toJson (p : PingProbe) : Json := .obj ([
  ("send_time_us", microsJson p.sendTime),
  ("recv_time_us", microsJson p.receiveTime),
  ("source", .ofOption (p.source.map IpAddress.toJson)),
  ("response", p.response.toJson)] ++ Json.optionalField "error" (p.error.map .str))

def rules : List Doc.FieldRule := [
  .of "send_time_us" .emptyInObject (Doc.option Doc.uint64),
  .of "recv_time_us" .emptyInObject (Doc.option Doc.uint64),
  .of "source" .emptyInObject (Doc.option IpAddress.ofDoc),
  .of "response" .refused PingResponse.ofDoc,
  .of "error" .allowed (Doc.option Doc.text)]

def ofDoc (d : Doc) : Decoded PingProbe := do
  let fields ← d.record .value "PingProbe" rules
  return {
    sendTime := ← fields.get "send_time_us" none (Doc.option Doc.uint64)
    receiveTime := ← fields.get "recv_time_us" none (Doc.option Doc.uint64)
    source := ← fields.get "source" none (Doc.option IpAddress.ofDoc)
    response := ← fields.require "response" PingResponse.ofDoc
    error := ← fields.get "error" none (Doc.option Doc.text) }

end PingProbe

end ProbeAgent
