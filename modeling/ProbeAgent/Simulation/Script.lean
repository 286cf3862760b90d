import ProbeAgent.Json.Value
import ProbeAgent.Net.Scripted
import ProbeAgent.Simulation.Responder
import ProbeAgent.Task.Spec
import ProbeAgent.Text.Hex

/-!
# Scripts of simulated networks

A script is a list of rules.  The first rule whose conditions hold for an attempt to open a socket
says how the socket behaves, and what happens meanwhile; without a rule nothing ever comes back.
Rules are written as JSON objects.
-/

namespace ProbeAgent.Simulation

/-- A condition that is left out holds. -/
structure Condition where
  host : Option String
  ttl : Option Nat
  -- The port that the socket sends to.
  port : Option Nat
  -- The number of the attempt, from 0.
  call : Option Nat

/-- What happens while a socket is being opened, in this order. -/
structure Incident where
  -- The run is cancelled.
  cancel : Bool
  -- The run breaks off.
  breakOff : Bool
  -- The clock moves by some milliseconds.
  advance : Option Int
  -- The run of a task is told to stop.
  stop : Option TaskId
  -- A task is removed.
  remove : Option TaskId
  -- The removed task is added again.
  readd : Bool

structure Rule where
  condition : Condition
  incident : Incident
  reply : ScriptedReply

abbrev Script := List Rule

def Condition.holds (c : Condition) (call : Nat) (spec : SocketSpec) : Bool :=
  c.host.all (· = spec.host) && c.ttl.all (· = spec.ttl.toNat)
    && c.port.all (· = spec.destinationPort.toNat) && c.call.all (· = call)

def Incident.quiet : Incident := ⟨false, false, none, none, none, false⟩

def Rule.silent : Rule := ⟨⟨none, none, none, none⟩, .quiet, .silence⟩

def Script.ruleFor (script : Script) (call : Nat) (spec : SocketSpec) : Rule :=
  (script.find? (·.condition.holds call spec)).getD .silent

/-! ## Written form -/

section

variable (json : Json)

def textAt (key : String) : String := ((json.get? key).bind Json.str?).getD ""

def intAt? (key : String) : Option Int :=
  match json.get? key with
  | some (.int n) => some n
  | _ => none

def natAt (key : String) : Nat := ((intAt? json key).getD 0).toNat

def flagAt (key : String) : Bool :=
  match json.get? key with
  | some (.bool b) => b
  | _ => false

def listAt (key : String) : List Json :=
  match json.get? key with
  | some (.arr items) => items
  | _ => []

/-- A reply; a sequence within a sequence is empty. -/
def plainReplyOf : ScriptedReply :=
  let sender := (IpAddress.parse? (textAt json "from")).getD (.v4 ⟨0⟩)
  let rtt : UInt64 := .ofNat (natAt json "rtt")
  match textAt json "kind" with
  | "ttl_exceeded" => .ttlExceeded sender rtt
  | "unreachable" => .unreachable sender rtt
  | "icmp" => .icmp (.ofNat (natAt json "type")) (.ofNat (natAt json "code")) sender rtt
  | "datagram" => .datagram (Text.bytesOfHex (textAt json "payload")) rtt
  | "answer" =>
    .answer ((Responder.names.lookup (textAt json "agent")).getD .empty).respond rtt
  | "sequence" => .sequence []
  | "open_error" => .openError
  | "send_error" => .sendError
  | "receive_error" => .receiveError
  | _ => .silence

def replyOf : ScriptedReply :=
  if textAt json "kind" = "sequence" then .sequence ((listAt json "replies").map plainReplyOf)
  else plainReplyOf json

def Rule.ofJson : Rule where
  condition := {
    host := (json.get? "host").bind Json.str?
    ttl := (intAt? json "ttl").map Int.toNat
    port := (intAt? json "port").map Int.toNat
    call := (intAt? json "call").map Int.toNat }
  incident := {
    cancel := flagAt json "cancel"
    breakOff := flagAt json "panic"
    advance := intAt? json "advance_ms"
    stop := (intAt? json "stop").map fun id => .ofNat id.toNat
    remove := (intAt? json "remove").map fun id => .ofNat id.toNat
    readd := flagAt json "readd" }
  reply := replyOf ((json.get? "reply").getD .null)

def socketSpecOf : SocketSpec where
  host := textAt json "host"
  sourcePort := .ofNat (natAt json "source_port")
  destinationPort := .ofNat (natAt json "destination_port")
  ttl := .ofNat (natAt json "ttl")

end

end ProbeAgent.Simulation
