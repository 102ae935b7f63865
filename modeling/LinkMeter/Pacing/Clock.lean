/-!
# Window boundaries

A paced sender works in windows of one second that are aligned to the ticks of
a statistics clock: boundaries lie 50 ms behind the tick by one second, by two
seconds and so on, so that what is sent in one window falls between two ticks.
Instants and lengths of time are numbers of nanoseconds here.

The number of whole seconds behind the first boundary is kept in 32 bits.
-/

namespace LinkMeter.Pacing

/-- A point in time, in nanoseconds from an arbitrary start. -/
abbrev Instant := Nat

/-- Instants reach so far to either side of the one at which their clock
started: their seconds are signed 64-bit numbers. -/
def reach : Nat := 0x8000_0000_0000_0000 * 1_000_000_000

/-- How long a clock has been running when it is read for the first time.  It
starts with the host, which takes this to be a day before. -/
def headStart : Nat := 86_400 * 1_000_000_000

/-- No instant lies so far ahead. -/
def horizon : Nat := reach - headStart

/-- The time from one tick of the statistics clock to the next. -/
def period : Nat := 1_000_000_000

/-- How far behind a tick the boundary of a window lies. -/
def boundaryOffset : Nat := 5 * 10_000_000

/-- The first boundary behind a tick. -/
def firstBoundary (lastTick : Instant) : Instant := lastTick + period + boundaryOffset

/-- The first boundary after an instant. -/
def nextBoundary (lastTick now : Instant) : Instant :=
  let first := firstBoundary lastTick
  if now < first then first
  else first + period * (((now - first) / period + 1) % 0x1_0000_0000)

/-- The time from an instant to the next boundary, and none if that has
passed. -/
def waitFrom (lastTick now : Instant) : Nat := nextBoundary lastTick now - now

/-- The time to the next boundary so long after a tick, if the clock gets that
far. -/
def waitAfter? (elapsed : Nat) : Option Nat :=
  if elapsed < horizon then some (waitFrom 0 elapsed) else none

/-- The time to the next boundary so long before a tick, if the clock gets that
far. -/
def waitBefore? (lead : Nat) : Option Nat :=
  if lead ≤ reach + headStart then some (waitFrom lead 0) else none

end LinkMeter.Pacing
