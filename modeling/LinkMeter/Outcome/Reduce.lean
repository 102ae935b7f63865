import LinkMeter.Measurement
import LinkMeter.Number.Count
import LinkMeter.Outcome.Basic

/-!
# Reducing a batch

Once per interval the samples of a measurement are reduced to one outcome.  A
batch with failures alone is reduced to its first failure; otherwise a reducer
adds up the reports of its own kind, passes over all others and turns totals
into rates per whole second, where less than one second counts as one.  A batch
with a total that does not fit its 64 bits cannot be reduced.
-/

namespace LinkMeter

/-- How a batch of samples becomes one outcome. -/
inductive Reducer where
  | bandwidth
  | connections
  | packets
  | latency
  | ping
  | server
  deriving DecidableEq, Inhabited, Repr

namespace Reducer

def all : List Reducer := [bandwidth, connections, packets, latency, ping, server]

def name : Reducer → String
  | bandwidth => "bandwidth"
  | connections => "cps"
  | packets => "pps"
  | latency => "latency"
  | ping => "ping"
  | server => "server"

def ofName? (text : String) : Option Reducer := all.find? (·.name == text)

/-- The reducer of a kind of measurement; the kinds that publish snapshots have
none. -/
def ofKind? : Kind → Option Reducer
  | .server => some server
  | .bandwidth => some bandwidth
  | .connectionRate => some connections
  | .packetRate => some packets
  | .latency => some latency
  | .ping => some ping
  | .path | .pathMonitor => none

/-- A total per second, over at least one second. -/
def perSecond (total seconds : UInt64) : UInt64 := total / max seconds 1

/-- A number of bytes in bits, cut off at 64 bits. -/
def bitsOf (bytes : UInt64) : UInt64 :=
  if bytes.toNat * 8 < UInt64.size then bytes * 8 else UInt64.ofNat (UInt64.size - 1)

/-- The bytes in each bandwidth sample of a batch. -/
def byteCounts (batch : List Outcome) : List UInt64 :=
  batch.filterMap fun outcome =>
    match outcome.report with
    | .bandwidth bytes _ => some bytes
    | _ => none

/-- The connections in each sample of connections of a batch. -/
def connectionCounts (batch : List Outcome) : List UInt64 :=
  batch.filterMap fun outcome =>
    match outcome.report with
    | .connections count _ => some count
    | _ => none

/-- The packets and their bytes in each packet sample of a batch. -/
def packetCounts (batch : List Outcome) : List (UInt64 × UInt64) :=
  batch.filterMap fun outcome =>
    match outcome.report with
    | .packets count bytes _ _ => some (count, bytes)
    | _ => none

/-- The pings in each ping sample of a batch. -/
def pingCounts (batch : List Outcome) : List PingCount :=
  batch.filterMap fun outcome =>
    match outcome.report with
    | .ping count => some count
    | _ => none

/-- The round trips of a batch in the order of measurement. -/
def allRoundTrips (batch : List Outcome) : List Span :=
  batch.flatMap fun outcome =>
    match outcome.report with
    | .roundTrips samples => samples
    | _ => []

/-- The packets of a batch and their bytes, if both fit. -/
def totalPackets? (batch : List Outcome) : Option (UInt64 × UInt64) := do
  let counts := packetCounts batch
  let count ← Count.total? (counts.map (·.1))
  let bytes ← Count.total? (counts.map (·.2))
  return (count, bytes)

/-- The pings of a batch with the statistics of their round trips, if the counts
fit. -/
def totalPings? (batch : List Outcome) : Option PingCount := do
  let counts := pingCounts batch
  let sent ← Count.total? (counts.map (·.sent))
  let received ← Count.total? (counts.map (·.received))
  let lost ← Count.total? (counts.map (·.lost))
  return { sent, received, lost
           latency := LatencyStats.ofSamples? (counts.flatMap (·.roundTrips)) }

/-- The first outcome of a batch that holds failures alone. -/
def firstFailure? (batch : List Outcome) : Option Outcome :=
  if batch.any (·.success) then none else batch.head?

/-- The report on a batch over some seconds, if its totals fit. -/
def reportOn? (reducer : Reducer) (seconds : UInt64) (batch : List Outcome) : Option Report :=
  match reducer with
  | bandwidth =>
    (Count.total? (byteCounts batch)).map fun bytes =>
      .bandwidth bytes (perSecond (bitsOf bytes) seconds)
  | connections =>
    (Count.total? (connectionCounts batch)).map fun total =>
      .connections total (perSecond total seconds)
  | packets =>
    (totalPackets? batch).map fun (count, bytes) =>
      .packets count bytes (perSecond count seconds) (perSecond (bitsOf bytes) seconds)
  | latency =>
    match LatencyStats.ofSamples? (allRoundTrips batch) with
    | some stats => some (.latency stats)
    | none => some .nothing
  | ping => (totalPings? batch).map .ping
  | server =>
    (totalPackets? batch).map fun (count, bytes) =>
      .server bytes count (perSecond (bitsOf bytes) seconds) (perSecond count seconds)

/-- The outcome of a batch over some seconds, if its totals fit. -/
def reduce? (reducer : Reducer) (seconds : UInt64) (batch : List Outcome) : Option Outcome :=
  match firstFailure? batch with
  | some failure => some failure
  | none => (reducer.reportOn? seconds batch).map Outcome.ok

end Reducer

end LinkMeter
