import LinkMeter.Failure
import LinkMeter.Latency
import LinkMeter.Outcome.Hop

/-!
# Outcomes

What a measurement reports.  Workers report small samples: bytes moved,
connections made, packets sent, single round trips.  A published outcome
reduces a batch of them and carries the rates as well.
-/

namespace LinkMeter

/-- Counts of pings.  A worker reports one attempt with its round trip; a
published report carries the statistics of all round trips instead. -/
structure PingCount where
  sent : UInt64 := 0
  received : UInt64 := 0
  lost : UInt64 := 0
  roundTrips : List Span := []
  latency : Option LatencyStats := none
  deriving DecidableEq, Inhabited

/-- What an outcome says, by kind of measurement. -/
inductive Report where
  | bandwidth (bytes bitsPerSecond : UInt64)
  | connections (connections connectionsPerSecond : UInt64)
  | packets (packets bytes packetsPerSecond bitsPerSecond : UInt64)
  /-- Round trips that are not yet reduced. -/
  | roundTrips (samples : List Span)
  | latency (stats : LatencyStats)
  | ping (count : PingCount)
  | path (hops : List Hop)
  /-- The server's account of datagrams from one peer. -/
  | server (bytes packets bitsPerSecond packetsPerSecond : UInt64)
  | nothing
  deriving DecidableEq, Inhabited

/-- A report, and whether the measurement succeeded. -/
structure Outcome where
  success : Bool
  error : Option String
  report : Report
  deriving DecidableEq, Inhabited

namespace Outcome

def ok (report : Report) : Outcome := ⟨true, none, report⟩

def failed (reason : String) : Outcome := ⟨false, some reason, .nothing⟩

def ofFailure (failure : Failure) : Outcome := failed failure.message

def bytes (count : UInt64) : Outcome := ok (.bandwidth count 0)

def connections (count : UInt64) : Outcome := ok (.connections count 0)

def packets (count bytes : UInt64) : Outcome := ok (.packets count bytes 0 0)

def roundTrips (samples : List Span) : Outcome := ok (.roundTrips samples)

/-- One ping: its round trip, or nothing if it was lost. -/
def pingAttempt : Option Span → Outcome
  | some roundTrip => ok (.ping { sent := 1, received := 1, roundTrips := [roundTrip] })
  | none => ok (.ping { sent := 1, lost := 1 })

def path (hops : List Hop) : Outcome := ok (.path hops)

end Outcome

end LinkMeter
