import LinkMeter.Address.Scope
import LinkMeter.Client.Basic

/-!
# Hosts without a network

The program itself brings no network along, so its command line is carried out in
surroundings that are assumed.  This is the assumption: an isolated host has
sockets and neither routes nor addresses, not even those of a loopback, and its
programs have no privileges.  Whatever they ask of a socket fails at once, and
how it fails depends on the address alone: without routes no IPv4 host is
reached, and without addresses there is none to reach an IPv6 host from.

The words and the numbers are the ones that a Linux system answers with.  Nothing
in this file describes the program, and no client or server depends on it: they
take what their workers and sockets meet as data.  Other surroundings make
another command line, and nothing else changes.
-/

namespace LinkMeter

namespace Isolation

/-- How a socket fails. -/
inductive SocketFault where
  | notPermitted
  | denied
  | invalid
  | unavailable
  | unreachable
  deriving DecidableEq, Inhabited, Repr

namespace SocketFault

/-- The system's words and its number for a fault. -/
def message : SocketFault → String
  | notPermitted => "Operation not permitted (os error 1)"
  | denied => "Permission denied (os error 13)"
  | invalid => "Invalid argument (os error 22)"
  | unavailable => "Cannot assign requested address (os error 99)"
  | unreachable => "Network is unreachable (os error 101)"

/-- The fault of the stream that was wanted. -/
def ioFault (fault : SocketFault) : IoFault := .other fault.message

end SocketFault

/-- How connecting a stream fails: groups of hosts are never reached by one. -/
def streamFault : Address → SocketFault
  | .v4 _ => .unreachable
  | .v6 address =>
    if address.isMulticast || address.mapped?.isSome then .unreachable
    else if address.isLinkLocal then .invalid
    else .unavailable

/-- How connecting a socket for datagrams fails. -/
def datagramFault : Address → SocketFault
  | .v4 _ => .unreachable
  | .v6 address =>
    if address.mapped?.isSome then .unreachable
    else if address.needsZone then .invalid
    else .unavailable

/-- How opening a socket for probes fails. -/
def probeFailure : Failure :=
  .permissionDenied
    ("raw ICMP sockets need root or CAP_NET_RAW (" ++ SocketFault.notPermitted.message ++ ")")

/-- Whether a port is kept for programs with privileges. -/
def isPrivileged (port : UInt16) : Bool := 0 < port && port < 1024

/-- How listening at an endpoint fails, if it does.  An IPv4 address is looked
at before the port and an IPv6 address after it, and a host without addresses can
listen at collective ones only. -/
def listenFault? (endpoint : Endpoint) : Option SocketFault :=
  match endpoint.address with
  | .v4 address =>
    if !address.isCollective then some .unavailable
    else if isPrivileged endpoint.port then some .denied
    else none
  | .v6 address =>
    if address.isMulticast then some .invalid
    else if isPrivileged endpoint.port then some .denied
    else if address.isUnspecified || address.mapped?.any (·.isCollective) then none
    else if address.isLinkLocal then some .invalid
    else some .unavailable

end Isolation

/-! ## Workers -/

namespace Client

/-- What a worker of a trial meets on an isolated host: every attempt to get
anywhere fails at once. -/
def isolatedWork (settings : Settings) (trial : Trial) : Work :=
  let stream := (Isolation.streamFault trial.peer.address).ioFault
  let datagram := (Isolation.datagramFault trial.peer.address).ioFault
  match trial.measurement.transport, trial.measurement.kind with
  | .tcp, .bandwidth => bandwidthWork trial (.error stream)
  | .tcp, .connectionRate => connectionsWork trial [some stream]
  | .tcp, .latency => latencyWork trial (.error stream)
  | .tcp, .ping =>
    connectPingWork settings.request.gap.nanos (List.replicate (attempts settings) none)
  | .udp, _ => datagramWork (.error datagram)
  | .icmp, _ => .failing Isolation.probeFailure
  | _, _ => {}
where
  /-- The attempts that fit into the duration, one after each pause. -/
  attempts (settings : Settings) : Nat :=
    let gap := settings.request.gap.nanos
    if gap = 0 then 1 else (settings.request.duration.nanos - 1) / gap + 1

/-- All workers of a trial on an isolated host. -/
def isolatedWorks (settings : Settings) (trial : Trial) : List Work :=
  List.replicate (workerCount settings) (isolatedWork settings trial)

end Client

end LinkMeter
