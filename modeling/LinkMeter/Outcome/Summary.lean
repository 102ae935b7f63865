import LinkMeter.Json.Plain
import LinkMeter.Number.Binary64
import LinkMeter.Number.Count
import LinkMeter.Outcome.Basic

/-!
# The summary of a run

Totals over all published outcomes of one run, with the mean rate over its
duration.  The rate is computed in floating point and cut to a whole number; a
run that took no time has rate zero.  A run with a total that does not fit its
64 bits has no summary.
-/

namespace LinkMeter

namespace Span

/-- The span in seconds, in floating point: the whole seconds and the fraction
are rounded before they are added. -/
def inSeconds (span : Span) : Binary64 :=
  (Binary64.ofNat span.seconds).add
    ((Binary64.ofNat span.subNanos).div (Binary64.ofNat Span.nanosPerSecond))

end Span

namespace Report

/-- The bytes that a report adds to the totals of a run. -/
def bytesMoved : Report → UInt64
  | .bandwidth bytes _ => bytes
  | .packets _ bytes _ _ => bytes
  | _ => 0

/-- The packets that a report adds to the totals of a run. -/
def packetsMoved : Report → UInt64
  | .packets count _ _ _ => count
  | _ => 0

/-- The connections that a report adds to the totals of a run. -/
def connectionsMade : Report → UInt64
  | .connections count _ => count
  | _ => 0

end Report

structure Summary where
  /-- From the start of the first worker to the end of the last one. -/
  duration : Span := Span.zero
  workers : Nat := 0
  bytes : UInt64 := 0
  packets : UInt64 := 0
  connections : UInt64 := 0
  bitsPerSecond : UInt64 := 0
  deriving DecidableEq, Inhabited

namespace Summary

/-- The mean rate of a number of bytes over a span. -/
def meanBits (bytes : UInt64) (duration : Span) : UInt64 :=
  let seconds := duration.inSeconds
  if seconds.isZero then 0
  else (((Binary64.ofNat bytes.toNat).mul (Binary64.ofNat 8)).div seconds).toWord

/-- The summary of the published outcomes of a run, if the totals fit. -/
def ofOutcomes? (outcomes : List Outcome) (duration : Span) (workers : Nat) :
    Option Summary := do
  let reports := outcomes.map (·.report)
  let bytes ← Count.total? (reports.map (·.bytesMoved))
  let packets ← Count.total? (reports.map (·.packetsMoved))
  let connections ← Count.total? (reports.map (·.connectionsMade))
  return { duration, workers, bytes, packets, connections
           bitsPerSecond := meanBits bytes duration }

def toJson (summary : Summary) : Json :=
  .object [("duration", summary.duration.toJson), ("workers", .natural summary.workers),
    ("total_bytes", .ofUInt64 summary.bytes), ("total_packets", .ofUInt64 summary.packets),
    ("total_connections", .ofUInt64 summary.connections),
    ("bits_per_second", .ofUInt64 summary.bitsPerSecond)]

def text (summary : Summary) : String :=
  summary.duration.inSeconds.fixed 2 ++ "s, " ++ Decimal.text summary.workers ++ " workers: " ++
    Decimal.text summary.bytes.toNat ++ " bytes (" ++
    Decimal.text summary.bitsPerSecond.toNat ++ " bits/s)" ++
    (if summary.packets > 0 then ", " ++ Decimal.text summary.packets.toNat ++ " packets"
      else "") ++
    (if summary.connections > 0 then
        ", " ++ Decimal.text summary.connections.toNat ++ " connections"
      else "")

end Summary

end LinkMeter
