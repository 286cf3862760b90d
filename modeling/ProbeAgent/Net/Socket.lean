import ProbeAgent.Net.Address
import ProbeAgent.Text.Utf8

/-!
# Sockets for probes

A measurement opens a socket to one target, sends a datagram and waits for what the network hands
back: a datagram, or an ICMP message about the one that was sent.  Times are microseconds since 1970.
-/

namespace ProbeAgent

open ProbeAgent.Text (Bytes)

structure SocketSpec where
  -- A host name or an address.
  host : String
  -- 0 leaves the choice to the system.
  sourcePort : UInt16
  destinationPort : UInt16
  -- Time to live of what is sent; 0 leaves it to the system.
  ttl : UInt8
  deriving DecidableEq

/-! ## Failures -/

/-- The kinds of failures that callers can tell apart. -/
inductive IoErrorKind where
  | permissionDenied
  | networkUnreachable
  | connectionRefused
  | notConnected
  deriving DecidableEq

structure IoError where
  kind : IoErrorKind
  message : String
  deriving DecidableEq

inductive TransportError where
  -- The host has no address to send to.
  | resolve (host reason : String)
  -- An operation failed on the way.
  | io (operation : String) (error : IoError)
  -- There are no such sockets on this platform.
  | unsupported (platform : String)
  deriving DecidableEq

def TransportError.message : TransportError → String
  | resolve host reason => "Failed to resolve host " ++ host ++ ": " ++ reason
  | io operation error => operation ++ ": " ++ error.message
  | unsupported platform => "UDP probe sockets are not supported on " ++ platform

/-! ## Events -/

/-- The ICMP type of "destination unreachable". -/
def icmpUnreachable : UInt8 := 3

def icmpTimeExceeded : UInt8 := 11

def icmpTtlExceeded : UInt8 := 0

inductive ReceiveEvent where
  -- An ICMP message about a datagram that was sent, and the node it comes from.
  | icmp (type code : UInt8) (offender : Option IpAddress) (time : UInt64)
  | datagram (payload : Bytes) (time : UInt64)
  deriving DecidableEq

def ReceiveEvent.time : ReceiveEvent → UInt64
  | icmp _ _ _ time => time
  | datagram _ time => time

def ReceiveEvent.offender : ReceiveEvent → Option IpAddress
  | icmp _ _ offender _ => offender
  | datagram .. => none

end ProbeAgent
