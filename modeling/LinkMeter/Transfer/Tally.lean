import LinkMeter.Number.Count
import LinkMeter.Outcome.Basic

/-!
# Tallies

A worker counts units and bytes on its own and hands them over as one sample
now and then: when a flush period has passed since the last time, and when it
is told to.  A tally with nothing counted hands over nothing.

A tally holds 64-bit counts.  Who cannot rule out that they run over counts with
`Tally.add?`.
-/

namespace LinkMeter.Transfer

/-- How counted units and bytes become a sample. -/
inductive Counting where
  | bytes
  | packets
  | connections
  deriving DecidableEq, Inhabited, Repr

namespace Counting

/-- The sample for counted units and bytes. -/
def sample : Counting → UInt64 → UInt64 → Outcome
  | bytes, _, size => .bytes size
  | packets, count, size => .packets count size
  | connections, count, _ => .connections count

end Counting

/-- Units and bytes that are not handed over yet. -/
structure Tally where
  counting : Counting
  units : UInt64 := 0
  bytes : UInt64 := 0
  deriving DecidableEq, Inhabited

namespace Tally

/-- The time after which a tally is handed over, in nanoseconds. -/
def flushPeriod : Nat := 100_000_000

/-- The sample that is due, and the empty tally. -/
def flush (tally : Tally) : List Outcome × Tally :=
  (if tally.units > 0 ∨ tally.bytes > 0 then [tally.counting.sample tally.units tally.bytes]
    else [], { counting := tally.counting })

/-- Counts units and bytes; `due` tells whether the flush period is over. -/
def add (tally : Tally) (units bytes : UInt64) (due : Bool) : List Outcome × Tally :=
  let counted := { tally with units := tally.units + units, bytes := tally.bytes + bytes }
  if due then counted.flush else ([], counted)

/-- Counts units and bytes, if the tally can hold them. -/
def add? (tally : Tally) (units bytes : UInt64) (due : Bool) : Option (List Outcome × Tally) :=
  match Count.add? tally.units units, Count.add? tally.bytes bytes with
  | some _, some _ => some (tally.add units bytes due)
  | _, _ => none

end Tally

end LinkMeter.Transfer
