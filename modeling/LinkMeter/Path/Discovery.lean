import LinkMeter.Outcome.Hop
import LinkMeter.Path.Script

/-!
# Discovering a path

A path is discovered by one probe per hop, from the first router on, until the
destination itself replies.  A hop that stays silent, and one whose probe fails
for a reason that concerns that probe alone, counts as one lost probe.  A fatal
failure ends the discovery.
-/

namespace LinkMeter

open Icmp (Finding ProbeId)

namespace Hop

/-- A hop after its first probe. -/
def ofFinding : Finding → Hop
  | .answered _ roundTrip peer => { address := some peer : Hop }.recordReply roundTrip
  | .lost => ({} : Hop).recordLoss

end Hop

namespace Path

/-- The host names of addresses, where they are known. -/
abbrev Names := Address → Option String

/-- Names nothing. -/
def Names.none : Names := fun _ => .none

/-- Gives a hop the host name of its address. -/
def withName (names : Names) (hop : Hop) : Hop :=
  match hop.address.bind names with
  | some name => hop.setName name
  | none => hop

/-- A failure that is not fatal costs one probe. -/
def settle : Attempt → Attempt
  | .error failure => if failure.isFatal then .error failure else .ok .lost
  | .ok finding => .ok finding

/-- Discovers up to `left` more hops behind those already found. -/
def discoverFrom {State : Type} (probe : Prober State) (names : Names) (destination : Address) :
    Nat → List Hop → State → Except Failure (List Hop) × State
  | 0, _, state => (.error (.unresponsive destination), state)
  | left + 1, hops, state =>
    let (attempt, state) := probe ⟨UInt8.ofNat hops.length, 0⟩ state
    match settle attempt with
    | .error failure => (.error failure, state)
    | .ok finding =>
      let hops := hops ++ [withName names (Hop.ofFinding finding)]
      if finding.isReplyFrom destination then (.ok hops, state)
      else discoverFrom probe names destination left hops state

/-- Discovers the hops up to and including the one where the destination
replies. -/
def discover {State : Type} (probe : Prober State) (names : Names) (destination : Address)
    (maxHops : UInt8) (state : State) : Except Failure (List Hop) × State :=
  discoverFrom probe names destination maxHops.toNat [] state

end Path

end LinkMeter
