import ProbeAgent.Net.Session

/-!
# Scripted transports

A transport that is played from a script instead of a network.  It counts what is opened, closed and
sent, and has a clock of its own, which moves by a second with each datagram.

`ScriptedTransport` and `ScriptedChannel` are the transport and one socket of it; `ScriptedLine` has
the one socket of a session.
-/

namespace ProbeAgent

open ProbeAgent.Text (Bytes)

/-- How a socket behaves.  Round-trip times are in microseconds. -/
inductive ScriptedReply where
  -- A router answers that the time to live is exceeded.
  | ttlExceeded (sender : IpAddress) (rtt : UInt64)
  -- The target answers that the port is unreachable.
  | unreachable (sender : IpAddress) (rtt : UInt64)
  | icmp (type code : UInt8) (sender : IpAddress) (rtt : UInt64)
  | datagram (payload : Bytes) (rtt : UInt64)
  -- A datagram computed from the last one that was sent.
  | answer (respond : Bytes → Bytes) (rtt : UInt64)
  -- One after the other.
  | sequence (replies : List ScriptedReply)
  | silence
  | openError
  | sendError
  | receiveError

structure ScriptedTransport where
  -- Sockets that were opened.
  opened : Nat
  -- Sockets that were closed.
  closed : Nat
  -- Datagrams that were sent.
  sent : Nat
  -- When the next datagram will be sent.
  clock : UInt64
  deriving DecidableEq

structure ScriptedChannel where
  -- What will still happen.
  pending : List ScriptedReply
  -- When a datagram was last sent.
  sentAt : Option UInt64
  lastPayload : Bytes

namespace ScriptedReply

def queue : ScriptedReply → List ScriptedReply
  | sequence replies => replies
  | reply => [reply]

/-- What a reply makes of a datagram that was sent at a time; `none` if nothing arrives. -/
def arrival (sentAt : UInt64) (payload : Bytes) : ScriptedReply → Option ReceiveEvent
  | ttlExceeded sender rtt =>
    some (.icmp icmpTimeExceeded icmpTtlExceeded (some sender) (sentAt + rtt))
  | unreachable sender rtt => some (.icmp icmpUnreachable 3 (some sender) (sentAt + rtt))
  | icmp type code sender rtt => some (.icmp type code (some sender) (sentAt + rtt))
  | datagram content rtt => some (.datagram content (sentAt + rtt))
  | answer respond rtt => some (.datagram (respond payload) (sentAt + rtt))
  | sequence _ | silence | openError | sendError | receiveError => none

end ScriptedReply

namespace ScriptedTransport

def name : String := "scripted"

def unused : ScriptedTransport := ⟨0, 0, 0, 1700000000000000⟩

/-- Microseconds from one datagram to the next. -/
def sendStep : UInt64 := 1000000

def openChannel (transport : ScriptedTransport) (reply : ScriptedReply) :
    Except TransportError ScriptedChannel × ScriptedTransport :=
  match reply with
  | .openError =>
    (.error (.io "socket" ⟨.permissionDenied, "scripted open failure"⟩), transport)
  | reply => (.ok ⟨reply.queue, none, []⟩, { transport with opened := transport.opened + 1 })

def close (transport : ScriptedTransport) : ScriptedTransport :=
  { transport with closed := transport.closed + 1 }

def describe (transport : ScriptedTransport) : String :=
  "ScriptedTransport \x7b opened: " ++ toString transport.opened
    ++ ", closed: " ++ toString transport.closed
    ++ ", sent: " ++ toString transport.sent ++ " \x7d"

end ScriptedTransport

namespace ScriptedChannel

def send (channel : ScriptedChannel) (transport : ScriptedTransport) (payload : Bytes) :
    Except IoError UInt64 × ScriptedChannel × ScriptedTransport :=
  match channel.pending with
  | .sendError :: _ => (.error ⟨.networkUnreachable, "scripted send failure"⟩, channel, transport)
  | _ =>
    let now := transport.clock
    (.ok now, { channel with sentAt := some now, lastPayload := payload },
      { transport with clock := now + ScriptedTransport.sendStep, sent := transport.sent + 1 })

/-- Looks for an event: the next thing that happens, once a datagram has been sent. -/
def receive (channel : ScriptedChannel) :
    Except IoError (Option ReceiveEvent) × ScriptedChannel :=
  match channel.sentAt, channel.pending with
  | none, _ => (.ok none, channel)
  | some _, [] => (.ok none, channel)
  | some sentAt, reply :: rest =>
    let channel := { channel with pending := rest }
    match reply with
    | .receiveError => (.error ⟨.connectionRefused, "scripted receive failure"⟩, channel)
    | reply => (.ok (reply.arrival sentAt channel.lastPayload), channel)

end ScriptedChannel

structure ScriptedLine where
  transport : ScriptedTransport
  channel : Option ScriptedChannel

namespace ScriptedLine

def unused : ScriptedLine := ⟨.unused, none⟩

def openSocket (line : ScriptedLine) (reply : ScriptedReply) :
    Except TransportError Unit × ScriptedLine :=
  match line.transport.openChannel reply with
  | (.error e, transport) => (.error e, { line with transport := transport })
  | (.ok channel, transport) => (.ok (), ⟨transport, some channel⟩)

def send (line : ScriptedLine) (payload : Bytes) : Except IoError UInt64 × ScriptedLine :=
  match line.channel with
  | none => (.error ⟨.notConnected, "no socket"⟩, line)
  | some channel =>
    let (result, channel, transport) := channel.send line.transport payload
    (result, ⟨transport, some channel⟩)

def receive (line : ScriptedLine) : Except IoError (Option ReceiveEvent) × ScriptedLine :=
  match line.channel with
  | none => (.error ⟨.notConnected, "no socket"⟩, line)
  | some channel =>
    let (result, channel) := channel.receive
    (result, { line with channel := some channel })

/-- All that is pending arrives before a timeout, and the last look finds nothing. -/
def looks (line : ScriptedLine) : Nat :=
  match line.channel with
  | none => 0
  | some channel => channel.pending.length + 1

def close (line : ScriptedLine) : ScriptedLine :=
  match line.channel with
  | none => line
  | some _ => ⟨line.transport.close, none⟩

end ScriptedLine

end ProbeAgent
