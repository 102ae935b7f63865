import LinkMeter.Number.Binary64
import LinkMeter.Span

/-!
# Latency statistics

The statistics of one batch of round trips, in the order in which they were
measured.  A percentile is an order statistic by nearest rank: of `n` samples
the one of rank `⌊n · percent / 100⌋`, counted from one.  The rank is taken
over at least two samples and is at least one, so a batch of one sample has
that sample as every percentile.

The mean and the jitter are whole nanoseconds, rounded down and cut off at 64
bits.  The jitter is the mean distance between neighbours, hence the only
statistic that depends on the order of measurement.
-/

namespace LinkMeter

/-- The statistics of a batch of round trips. -/
structure LatencyStats where
  count : UInt64
  mean : Span
  least : Span
  greatest : Span
  p50 : Span
  p90 : Span
  p95 : Span
  p99 : Span
  p999 : Span
  p9999 : Span
  /-- The mean distance between consecutive samples. -/
  jitter : Span
  deriving DecidableEq, Inhabited

/-- A percentage with up to two decimal places, in hundredths, as the nearest
floating-point value. -/
def percentOfHundredths (hundredths : Nat) : Binary64 := Binary64.ofRatio hundredths 100

/-- The position, from zero, of a percentile among `count` sorted samples.  The
product and the quotient are rounded to floating point before the cut to an
integer. -/
def percentileIndex (count : Nat) (percent : Binary64) : Nat :=
  (((Binary64.ofNat count).mul percent).div (Binary64.ofNat 100)).toWord.toNat - 1

namespace LatencyStats

/-- A number of nanoseconds as a span, cut off at 64 bits. -/
def cutNanos (nanos : Nat) : Span :=
  Span.ofNanos (UInt64.ofNat (min nanos (UInt64.size - 1)))

/-- The sum of the samples in nanoseconds. -/
def totalNanos (samples : List Span) : Nat := (samples.map Span.nanos).foldr (· + ·) 0

/-- The sum of the distances between consecutive samples, in nanoseconds. -/
def totalDistance : List Span → Nat
  | first :: second :: rest => first.distance second + totalDistance (second :: rest)
  | _ => 0

/-- The samples from the least to the greatest. -/
def sorted (samples : List Span) : List Span :=
  samples.mergeSort fun first second => decide (first ≤ second)

/-- The statistics of a batch; an empty batch has none. -/
def ofSamples? (samples : List Span) : Option LatencyStats :=
  if samples.isEmpty then none
  else
    let count := samples.length
    let ascending := sorted samples
    let percentile (hundredths : Nat) : Span :=
      ascending.getD (percentileIndex (max count 2) (percentOfHundredths hundredths)) Span.zero
    some {
      count := UInt64.ofNat count
      mean := cutNanos (totalNanos samples / count)
      least := ascending.headD Span.zero
      greatest := ascending.getLastD Span.zero
      p50 := percentile 5000
      p90 := percentile 9000
      p95 := percentile 9500
      p99 := percentile 9900
      p999 := percentile 9990
      p9999 := percentile 9999
      jitter := if count = 1 then Span.zero else cutNanos (totalDistance samples / (count - 1)) }

end LatencyStats

end LinkMeter
