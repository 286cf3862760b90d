import ProbeAgent.Net.Socket

/-!
# Targets of system sockets

The address that a host stands for.  An IPv4 address stands for itself; otherwise the first IPv4
address that the system knows for the host is taken.
-/

namespace ProbeAgent

/-- The name of the sockets that Linux has for probes. -/
def systemTransportName : String := "udp-recverr"

def unsupportedTransportName : String := "unsupported"

/-- The addresses of a host that is itself an address, or that cannot be looked up at all; other
hosts are looked up. -/
def hostAddresses (lookup : String → Except String (List IpAddress)) (host : String) :
    Except String (List IpAddress) :=
  match IpAddress.parse? host with
  | some address => return [address]
  | none =>
    if host.toList.contains '\x00' then
      throw "file name contained an unexpected NUL byte"
    else lookup host

/-- The address to send to; `lookup` asks the system for the addresses of a name. -/
def resolveTarget (lookup : String → Except String (List IpAddress)) (host : String) :
    Except TransportError Ipv4 :=
  match hostAddresses lookup host with
  | .error reason => throw (.resolve host reason)
  | .ok addresses =>
    match addresses.findSome? fun a => match a with | .v4 a => some a | .v6 _ => none with
    | some address => return address
    | none => throw (.resolve host "no IPv4 address")

/-- Why no socket is opened on a platform that has none for probes.  A host without an address is told
of first. -/
def refuseSocket (lookup : String → Except String (List IpAddress)) (platform : String)
    (spec : SocketSpec) : TransportError :=
  match resolveTarget lookup spec.host with
  | .error e => e
  | .ok _ => .unsupported platform

end ProbeAgent
