import LinkMeter.Failure
import LinkMeter.Measurement
import LinkMeter.Request

/-!
# Settings

What a user configures for a client or a server.  Settings that are left unset
take a default of the chosen measurement when the request is made
(`Settings.request`).  `Settings.validate` finds the first reason why a client
could not run with its settings; a server runs with any.
-/

namespace LinkMeter

/-- Which side of a measurement a program takes. -/
inductive Role where
  | server
  | client
  deriving DecidableEq, Inhabited, Repr

/-- The configuration of a client or a server. -/
structure Settings where
  role : Role := .client
  transport : Transport := .tcp
  kind : Kind := .bandwidth
  port : UInt16 := 8888
  /-- The host that a client measures against. -/
  serverAddress : Option String := none
  /-- The local address that a server is restricted to. -/
  bindAddress : Option Address := none
  duration : Span := Span.ofSeconds 10
  threads : UInt32 := 1
  bufferSize : Option UInt32 := none
  /-- Round trips in one batch of latency samples. -/
  roundTrips : UInt32 := 1000
  /-- Whether the server sends and the client receives. -/
  reverse : Bool := false
  /-- The sending rate in bits per second. -/
  bandwidth : Option UInt64 := none
  /-- Latency round trips left out before sampling starts. -/
  warmup : UInt32 := 1
  gap : Option Span := none
  serviceType : UInt8 := 0
  json : Bool := false
  interval : Span := Span.ofSeconds 1
  /-- How far along a path probes may go. -/
  maxHops : UInt8 := 30
  /-- How long a probe waits for its answer. -/
  probeTimeout : Span := Span.ofSeconds 1
  /-- Whether hop addresses stay without names. -/
  withoutNames : Bool := false
  deriving DecidableEq, Inhabited

/-- Why a client cannot run with its settings. -/
inductive SettingsFault where
  | noServer
  | unsupported (measurement : Measurement)
  | noThreads
  | noInterval
  | noHops
  | emptyBuffer
  | reverseElsewhere (measurement : Measurement)
  deriving DecidableEq, Repr

namespace SettingsFault

/-- The reason in words. -/
def message : SettingsFault → String
  | noServer => "Server address is required for client mode"
  | unsupported measurement =>
    measurement.kind.label ++ " test is not supported over " ++ measurement.transport.label
  | noThreads => "Thread count must be at least 1"
  | noInterval => "Publish interval must be non-zero"
  | noHops => "Max hops must be at least 1"
  | emptyBuffer => "Buffer size must be non-zero"
  | reverseElsewhere measurement =>
    "Reverse mode is only available for TCP bandwidth, not " ++ measurement.label

def failure (fault : SettingsFault) : Failure := .settings fault.message

end SettingsFault

namespace Settings

/-- Default settings for a server on a port. -/
def forServer (port : UInt16) : Settings := { role := .server, port := port }

/-- Default settings for a client of a server. -/
def forClient (server : String) (port : UInt16) : Settings :=
  { role := .client, serverAddress := some server, port := port }

def measurement (settings : Settings) : Measurement := ⟨settings.transport, settings.kind⟩

/-- The request that a client makes, with defaults resolved. -/
def request (settings : Settings) : Request where
  threads := max settings.threads 1
  bufferSize := settings.bufferSize.getD settings.measurement.defaultBufferSize
  roundTrips := max settings.roundTrips 1
  reverse := settings.reverse
  duration := settings.duration
  gap := settings.gap.getD settings.measurement.defaultGap
  warmup := settings.warmup
  rate := settings.bandwidth.getD 0
  serviceType := settings.serviceType

/-- The first reason why the settings cannot be used. -/
def fault? (settings : Settings) : Option SettingsFault :=
  if settings.role = .server then none
  else if settings.serverAddress = none then some .noServer
  else if !settings.measurement.isSupported then some (.unsupported settings.measurement)
  else if settings.threads = 0 then some .noThreads
  else if settings.interval.isZero then some .noInterval
  else if settings.maxHops = 0 then some .noHops
  else if settings.bufferSize = some 0 then some .emptyBuffer
  else if settings.reverse ∧ settings.measurement ≠ .tcpBandwidth then
    some (.reverseElsewhere settings.measurement)
  else none

/-- Checks that the configured measurement can run. -/
def validate (settings : Settings) : Except SettingsFault Unit :=
  match settings.fault? with
  | some fault => .error fault
  | none => .ok ()

end Settings

end LinkMeter
