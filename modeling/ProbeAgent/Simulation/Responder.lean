import ProbeAgent.Snmp.Message

/-!
# Simulated agents

What a simulated agent answers to the bytes of a request.  All but the last three read the request
as a message; they do not answer what is no message, or has the community `wrong`.
-/

namespace ProbeAgent.Simulation

open ProbeAgent.Text (Bytes)

inductive Responder where
  | faithful
  | staleId
  | otherCommunity
  | requestPdu
  | errorStatus
  | otherVersion
  | otherObject
  -- Knows version 1 alone.
  | firstVersion
  | truncated
  | trailing
  -- Sends the request backwards.
  | reverse
  | echo
  -- Sends an empty datagram.
  | empty
  deriving DecidableEq

namespace Responder

def names : List (String × Responder) := [
  ("agent", faithful), ("stale_id", staleId), ("other_community", otherCommunity),
  ("request_pdu", requestPdu), ("error_status", errorStatus), ("other_version", otherVersion),
  ("other_oid", otherObject), ("v1_only", firstVersion), ("truncated", truncated),
  ("trailing", trailing), ("reverse", reverse), ("echo", echo), ("empty", empty)]

/-- The answer of an agent that does everything right. -/
def answer (request : Bytes) : Bytes :=
  match Snmp.Message.decode? request with
  | none => []
  | some m =>
    if m.community = "wrong" then []
    else
      { m with
        pdu := Snmp.getResponse
        value := .octets (Text.encode "test agent") : Snmp.Message }.encode

/-- The right answer with something changed. -/
def altered (change : Snmp.Message → Snmp.Message) (request : Bytes) : Bytes :=
  match Snmp.Message.decode? (answer request) with
  | none => []
  | some m => (change m).encode

def respond : Responder → Bytes → Bytes
  | faithful, request => answer request
  | staleId, request => altered (fun m => { m with requestId := m.requestId + 1 }) request
  | otherCommunity, request =>
    altered (fun m => { m with community := m.community ++ "x" }) request
  | requestPdu, request => altered (fun m => { m with pdu := Snmp.getRequest }) request
  | errorStatus, request => altered (fun m => { m with errorStatus := 2 }) request
  | otherVersion, request => altered (fun m => { m with version := 1 - m.version }) request
  | otherObject, request => altered (fun m => { m with objectId := [1, 3] }) request
  | firstVersion, request =>
    match Snmp.Message.decode? request with
    | some m => if m.version = 0 then answer request else []
    | none => []
  | truncated, request => (answer request).dropLast
  | trailing, request => answer request ++ Text.encode "junk"
  | reverse, request => request.reverse
  | echo, request => request
  | empty, _ => []

end Responder

end ProbeAgent.Simulation
