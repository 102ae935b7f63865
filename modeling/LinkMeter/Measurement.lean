import LinkMeter.Json.Schema
import LinkMeter.Span

/-!
# What can be measured

A measurement is a kind of observation made over a transport.  Only some pairs
make sense (`Measurement.isSupported`); a pair identifies a measurement towards
one peer, both in a request and in the records of a server.
-/

namespace LinkMeter

/-- The transport that a measurement runs over. -/
inductive Transport where
  | tcp
  | udp
  | icmp
  deriving DecidableEq, Inhabited, Repr

namespace Transport

/-- All transports, in the order of their wire numbers. -/
def all : List Transport := [tcp, udp, icmp]

/-- The name shown to the user. -/
def label : Transport → String
  | tcp => "TCP"
  | udp => "UDP"
  | icmp => "ICMP"

/-- The name in JSON. -/
def name : Transport → String
  | tcp => "Tcp"
  | udp => "Udp"
  | icmp => "Icmp"

def ofName? (text : String) : Option Transport := all.find? (·.name == text)

def toJson (transport : Transport) : Json := .string transport.name

def ofJson? (value : Json) : Option Transport := (Json.bareChoice? value).bind ofName?

end Transport

/-- The kind of observation. -/
inductive Kind where
  /-- The server's own account of datagrams from one peer. -/
  | server
  | bandwidth
  | connectionRate
  | packetRate
  | latency
  | ping
  /-- One walk along the path to a destination. -/
  | path
  /-- A path whose hops are probed again and again. -/
  | pathMonitor
  deriving DecidableEq, Inhabited, Repr

namespace Kind

/-- All kinds, in the order of their wire numbers. -/
def all : List Kind :=
  [server, bandwidth, connectionRate, packetRate, latency, ping, path, pathMonitor]

/-- The name shown to the user. -/
def label : Kind → String
  | server => "Server"
  | bandwidth => "Bandwidth"
  | connectionRate => "Connections/s"
  | packetRate => "Packets/s"
  | latency => "Latency"
  | ping => "Ping"
  | path => "TraceRoute"
  | pathMonitor => "MyTraceRoute"

/-- The name in JSON. -/
def name : Kind → String
  | server => "Server"
  | bandwidth => "Bandwidth"
  | connectionRate => "ConnectionsPerSecond"
  | packetRate => "PacketsPerSecond"
  | latency => "Latency"
  | ping => "Ping"
  | path => "TraceRoute"
  | pathMonitor => "MyTraceRoute"

def ofName? (text : String) : Option Kind := all.find? (·.name == text)

def toJson (kind : Kind) : Json := .string kind.name

def ofJson? (value : Json) : Option Kind := (Json.bareChoice? value).bind ofName?

end Kind

/-- A kind of observation over a transport. -/
structure Measurement where
  transport : Transport
  kind : Kind
  deriving DecidableEq, Inhabited, Repr

namespace Measurement

/-- Transport and kind as shown to the user. -/
def label (measurement : Measurement) : String :=
  measurement.transport.label ++ "/" ++ measurement.kind.label

/-- Whether the kind can be observed over the transport at all. -/
def isSupported : Measurement → Bool
  | ⟨.tcp, .bandwidth⟩ | ⟨.udp, .bandwidth⟩ | ⟨.tcp, .connectionRate⟩ | ⟨.udp, .packetRate⟩
  | ⟨.tcp, .latency⟩ | ⟨.tcp, .ping⟩ | ⟨.icmp, .ping⟩ | ⟨.icmp, .path⟩ | ⟨.icmp, .pathMonitor⟩ =>
    true
  | _ => false

/-- The buffer size in bytes of a measurement that sets none. -/
def defaultBufferSize : Measurement → UInt32
  | ⟨.tcp, .bandwidth⟩ => 16384
  | ⟨_, .bandwidth⟩ => 1024
  | ⟨_, .packetRate⟩ | ⟨_, .latency⟩ => 1
  | _ => 0

/-- The pause between samples of a measurement that sets none. -/
def defaultGap : Measurement → Span
  | ⟨_, .ping⟩ | ⟨_, .path⟩ | ⟨_, .pathMonitor⟩ => Span.ofSeconds 1
  | _ => Span.zero

def tcpBandwidth : Measurement := ⟨.tcp, .bandwidth⟩

def tcpLatency : Measurement := ⟨.tcp, .latency⟩

def tcpConnectionRate : Measurement := ⟨.tcp, .connectionRate⟩

def udpServer : Measurement := ⟨.udp, .server⟩

def toJson (measurement : Measurement) : Json :=
  .object [("protocol", measurement.transport.toJson), ("test_type", measurement.kind.toJson)]

end Measurement

end LinkMeter
