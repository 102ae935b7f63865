import LinkMeter.Address.Basic
import LinkMeter.Icmp.Match
import LinkMeter.Span

/-!
# What a probe finds

A probe is answered by some peer after some time, or nothing matching arrives
in time and it is lost.
-/

namespace LinkMeter.Icmp

/-- The outcome of one probe. -/
inductive Finding where
  | answered (answer : Answer) (roundTrip : Span) (peer : Address)
  | lost
  deriving DecidableEq, Inhabited

namespace Finding

/-- Whether a router on the path dropped the probe because its hop count ran
out. -/
def isTimeExceeded : Finding → Bool
  | answered .timeExceeded _ _ => true
  | _ => false

def isLost : Finding → Bool
  | lost => true
  | _ => false

/-- Who answered. -/
def peer? : Finding → Option Address
  | answered _ _ peer => some peer
  | lost => none

/-- How long the answer took. -/
def roundTrip? : Finding → Option Span
  | answered _ roundTrip _ => some roundTrip
  | lost => none

/-- Whether a destination itself replied. -/
def isReplyFrom (destination : Address) : Finding → Bool
  | answered .reply _ peer => peer == destination
  | _ => false

end Finding

end LinkMeter.Icmp
