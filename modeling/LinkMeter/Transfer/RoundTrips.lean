import LinkMeter.Request
import LinkMeter.Transfer.Pump

/-!
# Measuring round trips

A round trip writes a message to an echoing peer and reads as many bytes back.
Some round trips warm the connection up and are not measured; after them every
one is, and the measured ones are handed over in batches.

When the measurement is told to stop, an unfinished batch is handed over as
well; when the stream fails, it is lost with the connection.
-/

namespace LinkMeter.Transfer

open Wire

/-- How round trips are measured. -/
structure RoundTripPlan where
  messageSize : Nat
  /-- Round trips that are not measured. -/
  warmup : Nat
  /-- Measured round trips in one batch. -/
  batchSize : Nat
  /-- Whether there is a pause between measured round trips. -/
  pauses : Bool
  deriving DecidableEq, Inhabited

namespace RoundTripPlan

/-- The plan that a request asks for; a message has at least one byte and a
batch at least one round trip. -/
def ofRequest (request : Request) : RoundTripPlan where
  messageSize := max 1 request.bufferSize.toNat
  warmup := request.warmup.toNat
  batchSize := max 1 request.roundTrips.toNat
  pauses := !request.gap.isZero

end RoundTripPlan

/-- What a measurement of round trips did. -/
structure Measured where
  /-- The batches handed over. -/
  samples : List Outcome := []
  /-- The round trips of the unfinished batch. -/
  unfinished : List Span := []
  /-- All round trips that were measured. -/
  roundTrips : List Span := []
  /-- Why the measurement ended, if the stream failed. -/
  fault : Option IoFault := none
  deriving DecidableEq, Inhabited

namespace Measured

/-- Measures one more round trip, which may complete a batch. -/
def record (measured : Measured) (batchSize : Nat) (roundTrip : Span) : Measured :=
  let batch := measured.unfinished ++ [roundTrip]
  let counted := { measured with roundTrips := measured.roundTrips ++ [roundTrip] }
  if batch.length = batchSize then
    { counted with samples := counted.samples ++ [Outcome.roundTrips batch], unfinished := [] }
  else { counted with unfinished := batch }

/-- Hands over the unfinished batch. -/
def finish (measured : Measured) : Measured :=
  if measured.unfinished.isEmpty then measured
  else
    { measured with
      samples := measured.samples ++ [Outcome.roundTrips measured.unfinished], unfinished := [] }

/-- Ends with a failure of the stream; the unfinished batch is lost. -/
def fail (measured : Measured) (fault : IoFault) : Measured := { measured with fault := some fault }

end Measured

/-- One round trip: a message is written and as many bytes are read. -/
def exchange (size : Nat) (source : Source) (sink : Sink) : Reading Unit × Source × Sink :=
  match sink.writeAll (List.replicate size 0) with
  | (.failed fault, sink) => (.failed fault, source, sink)
  | (.waiting, sink) => (.waiting, source, sink)
  | (.done _, sink) =>
    match source.readExact size with
    | (.failed fault, source) => (.failed fault, source, sink)
    | (.waiting, source) => (.waiting, source, sink)
    | (.done _, source) => (.done (), source, sink)

/-- A completed round trip takes something away from the source. -/
theorem size_lt_of_exchange {size : Nat} {source rest : Source} {sink sink' : Sink}
    (hsize : 0 < size) (h : exchange size source sink = (.done (), rest, sink')) :
    rest.size < source.size := by
  unfold exchange at h
  split at h
  · simp at h
  · simp at h
  · split at h
    · simp at h
    · simp at h
    · rename_i hread
      simp only [Prod.mk.injEq, true_and] at h
      obtain ⟨rfl, -⟩ := h
      exact Source.size_lt_of_readExact hsize hread

/-- The round trips that warm up a connection.  The connection is ready for
measuring, or the measurement is over, perhaps with a failure. -/
def warmUp (chance : Chance) (size : Nat) : Nat → Nat → Source → Sink →
    Except (Option IoFault) (Source × Sink)
  | 0, _, source, sink => .ok (source, sink)
  | left + 1, round, source, sink =>
    let sink := sink.tell (chance.toldBefore round)
    if sink.stopped && chance.stopBefore round then .error none
    else
      match exchange size source sink with
      | (.failed fault, _, _) => .error (some fault)
      | (.waiting, _, _) => .error none
      | (.done _, source, sink) => warmUp chance size left (round + 1) source sink

/-- Measures round trips until told to stop, or until the stream falls silent or
fails; `lasting` tells how long each one takes. -/
def measureFrom (chance : Chance) (plan : RoundTripPlan) (lasting : Nat → Span) (round : Nat)
    (source : Source) (sink : Sink) (measured : Measured) : Measured :=
  let sink := sink.tell (chance.toldBefore round)
  if hsize : plan.messageSize = 0 then measured.finish
  else if sink.stopped && chance.stopBefore round then measured.finish
  else
    match hexchange : exchange plan.messageSize source sink with
    | (.failed fault, _, _) => measured.fail fault
    | (.waiting, _, _) => measured.finish
    | (.done _, rest, sink) =>
      have := size_lt_of_exchange (Nat.pos_of_ne_zero hsize) hexchange
      let measured := measured.record plan.batchSize (lasting measured.roundTrips.length)
      let sink := sink.tell (plan.pauses && chance.toldAfter round)
      if plan.pauses && sink.stopped && chance.stopAfter round then measured.finish
      else measureFrom chance plan lasting (round + 1) rest sink measured
termination_by source.size

def measure (chance : Chance) (plan : RoundTripPlan) (lasting : Nat → Span) (source : Source)
    (sink : Sink) : Measured :=
  match warmUp chance plan.messageSize plan.warmup 0 source sink with
  | .error none => {}
  | .error (some fault) => ({} : Measured).fail fault
  | .ok (source, sink) => measureFrom chance plan lasting plan.warmup source sink {}

end LinkMeter.Transfer
