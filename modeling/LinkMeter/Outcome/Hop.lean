import LinkMeter.Address.Basic
import LinkMeter.Number.Binary64
import LinkMeter.Span

/-!
# Hops

The running statistics of one hop on a path.  A probe is either answered, with
its round trip, or lost; the statistics of the round trips stay zero until the
first answer.  The running total is a span, so an answer that takes it out of
range cannot be recorded in full.
-/

namespace LinkMeter

/-- The probes of one hop and what came back. -/
structure Hop where
  /-- The address that answers for the hop. -/
  address : Option Address := none
  sent : UInt32 := 0
  received : UInt32 := 0
  lost : UInt32 := 0
  last : Span := Span.zero
  best : Span := Span.zero
  worst : Span := Span.zero
  total : Span := Span.zero
  mean : Span := Span.zero
  /-- The first label of the host name. -/
  name : String := ""
  fullName : String := ""
  deriving DecidableEq, Inhabited

namespace Hop

/-- Counts an answered probe, all but adding its round trip to the total. -/
def noteReply (hop : Hop) (roundTrip : Span) : Hop :=
  let received := hop.received + 1
  { hop with
    sent := hop.sent + 1
    received := received
    last := roundTrip
    best := if received = 1 ∨ roundTrip < hop.best then roundTrip else hop.best
    worst := if roundTrip > hop.worst then roundTrip else hop.worst }

/-- Counts an answered probe, if the total of the round trips stays in
range. -/
def recordReply? (hop : Hop) (roundTrip : Span) : Option Hop :=
  (hop.total.add? roundTrip).map fun total =>
    let noted := hop.noteReply roundTrip
    { noted with total := total, mean := total.share noted.received.toNat }

/-- Counts an answered probe.  A round trip that would take the total out of
range is noted and not added. -/
def recordReply (hop : Hop) (roundTrip : Span) : Hop :=
  (hop.recordReply? roundTrip).getD (hop.noteReply roundTrip)

/-- Counts a probe without an answer, or with one that does not count. -/
def recordLoss (hop : Hop) : Hop := { hop with sent := hop.sent + 1, lost := hop.lost + 1 }

def setName (hop : Hop) (fullName : String) : Hop :=
  { hop with
    fullName := fullName
    name := String.ofList (fullName.toList.takeWhile (· ≠ '.')) }

/-- The share of lost probes in percent, zero before the first probe. -/
def lossPercent (hop : Hop) : Binary64 :=
  if hop.sent = 0 then Binary64.ofNat 0
  else
    ((Binary64.ofNat hop.lost.toNat).mul (Binary64.ofNat 100)).div
      (Binary64.ofNat hop.sent.toNat)

end Hop

end LinkMeter
