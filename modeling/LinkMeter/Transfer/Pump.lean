import LinkMeter.Pacing.Pacer
import LinkMeter.Transfer.Tally
import LinkMeter.Wire.Stream

/-!
# Pumps

A pump moves bytes between a buffer and a stream until the stream ends, fails,
or the pump is told to stop.  It returns the samples that it handed over, in
order, beside its result, so what it reports can be compared with what the
stream took or delivered.

Four things are not settled by the stream: whether somebody else tells the pump
to stop, whether a pump that could both go on and stop does stop, whether a
tally is due, and what the clocks say.  They are parameters (`Chance`),
numbered by the rounds of the pump.
-/

namespace LinkMeter.Transfer

open Wire

/-- What a pump's stream leaves open, by round. -/
structure Chance where
  /-- Whether somebody else tells the pump to stop before the operation of a
  round. -/
  toldBefore : Nat → Bool
  /-- Whether somebody else tells it to stop between that operation and the next
  round. -/
  toldAfter : Nat → Bool
  /-- Whether a pump that was told to stop does so before its next operation. -/
  stopBefore : Nat → Bool
  /-- Whether a pump that was told to stop does so before it goes on to the
  next round. -/
  stopAfter : Nat → Bool
  /-- Whether the flush period of the tally is over. -/
  due : Nat → Bool
  /-- When the statistics clock ticked since the round before, if it did. -/
  ticked : Nat → Option Pacing.Instant
  /-- The instant at which sent bytes are recorded. -/
  recorded : Nat → Pacing.Instant
  /-- The instant after the pause that follows. -/
  resumed : Nat → Pacing.Instant

namespace Chance

/-- Clocks that stand still, no flush in between, and a pump that stops as soon
as it is told to, which the stream alone does. -/
def still : Chance where
  toldBefore := fun _ => false
  toldAfter := fun _ => false
  stopBefore := fun _ => true
  stopAfter := fun _ => true
  due := fun _ => false
  ticked := fun _ => none
  recorded := fun _ => 0
  resumed := fun _ => 0

end Chance

/-! ## Sending -/

structure Sent where
  /-- The bytes offered in each call, and whether the pump slept since the call
  before. -/
  offers : List (Nat × Bool) := []
  samples : List Outcome := []
  /-- The bytes taken by the stream. -/
  total : UInt64 := 0
  /-- Why the pump ended, if the stream failed. -/
  fault : Option IoFault := none
  deriving DecidableEq, Inhabited

namespace Sent

/-- What a pump did, with its tally handed over at the end. -/
def finish (sent : Sent) (tally : Tally) (fault : Option IoFault) : Sent :=
  { sent with samples := sent.samples ++ tally.flush.1, fault := fault }

/-- The total, or the failure of the stream. -/
def result (sent : Sent) : Except IoFault UInt64 :=
  match sent.fault with
  | none => .ok sent.total
  | some fault => .error fault

end Sent

/-- The bytes that a pump offers: what the pacer allows, but at least one and
at most the buffer. -/
def offerSize (pacer : Pacing.Pacer) (buffer : Nat) : Nat :=
  max 1 (min pacer.allowance buffer)

/-- Sends until the stream takes nothing, fails or falls silent, or the signal
to stop is followed; the list says what the stream does with each call.
`slept` tells whether the pump slept since its last call, and `stopped` whether
it was told to stop.  A pump that was told to stop does not begin a pause. -/
def sendFrom (chance : Chance) (buffer : Nat) : Nat → List Acceptance → Pacing.Pacer → Tally →
    Bool → Bool → Sent → Sent
  | round, script, pacer, tally, slept, stopped, sent =>
    let stopped := stopped || chance.toldBefore round
    if stopped && chance.stopBefore round then sent.finish tally none
    else
      let size := offerSize pacer buffer
      let offered := { sent with offers := sent.offers ++ [(size, slept)] }
      match script with
      | [] => offered.finish tally none
      | next :: rest =>
        match next.taken? size with
        | none => offered.finish tally next.fault?
        | some (count, raises) =>
          if count = 0 then offered.finish tally none
          else
            let (samples, tally) := tally.add 0 (UInt64.ofNat count) (chance.due round)
            let counted := { offered with
              total := offered.total + UInt64.ofNat count
              samples := offered.samples ++ samples }
            let pacer := pacer.tick (chance.ticked round)
            let sleeps := pacer.sleeps count (chance.recorded round)
            let stopped := stopped || raises
            let told := stopped || chance.toldAfter round
            if stopped && sleeps || told && chance.stopAfter round then counted.finish tally none
            else
              sendFrom chance buffer (round + 1) rest
                (pacer.record count (chance.recorded round) (chance.resumed round)) tally sleeps
                told counted

/-- Sends a buffer over and over at a rate in bits per second.  A buffer holds
at least one byte; without one there is nothing to send. -/
def send? (chance : Chance) (lastTick now : Pacing.Instant) (rate : UInt64) (buffer : Nat)
    (script : List Acceptance) : Option Sent :=
  if buffer = 0 then none
  else some (sendFrom chance buffer 0 script (Pacing.Pacer.begin lastTick now rate buffer)
    { counting := .bytes } false false {})

/-! ## Receiving -/

structure Received where
  samples : List Outcome := []
  /-- The bytes delivered by the stream. -/
  total : UInt64 := 0
  /-- Why the pump ended, if the stream failed. -/
  fault : Option IoFault := none
  /-- What is left of the stream. -/
  rest : Source := []
  deriving DecidableEq, Inhabited

namespace Received

/-- What a pump did, with its tally handed over at the end. -/
def finish (received : Received) (tally : Tally) (fault : Option IoFault) (rest : Source) :
    Received :=
  { received with samples := received.samples ++ tally.flush.1, fault := fault, rest := rest }

/-- The total, or the failure of the stream. -/
def result (received : Received) : Except IoFault UInt64 :=
  match received.fault with
  | none => .ok received.total
  | some fault => .error fault

end Received

/-- Receives until the stream ends, fails or falls silent, or the signal to stop
is followed; `stopped` tells whether the pump was told to stop. -/
def receiveFrom (chance : Chance) (buffer : Nat) (round : Nat) (source : Source) (tally : Tally)
    (stopped : Bool) (received : Received) : Received :=
  let stopped := stopped || chance.toldBefore round
  if stopped && chance.stopBefore round then received.finish tally none source
  else
    match hread : source.read buffer with
    | (.failed fault, rest) => received.finish tally (some fault) rest
    | (.waiting, rest) => received.finish tally none rest
    | (.done bytes, rest) =>
      if hbytes : bytes = [] then received.finish tally none rest
      else
        have := Source.size_lt_of_read hread hbytes
        let size := UInt64.ofNat bytes.length
        let (samples, tally) := tally.add 0 size (chance.due round)
        receiveFrom chance buffer (round + 1) rest tally stopped
          { received with total := received.total + size, samples := received.samples ++ samples }
termination_by source.size

/-- Receives into a buffer of the given size. -/
def receive (chance : Chance) (buffer : Nat) (source : Source) : Received :=
  receiveFrom chance buffer 0 source { counting := .bytes } false {}

/-! ## Echoing -/

/-- Echoes whole messages of `buffer` bytes until the stream ends, fails or
falls silent, or the signal to stop is followed; `count` were echoed before.  A
message that is cut off by the end of the stream is dropped.

Messages are counted without a bound.  A program counts them in 64 bits, and as
each of them takes a byte or more of the stream, that makes a difference only on
streams of `2 ^ 64` bytes. -/
def echoFrom (chance : Chance) (buffer : Nat) (round : Nat) (source : Source) (sink : Sink)
    (count : Nat) : Reading Nat × Source × Sink :=
  let sink := sink.tell (chance.toldBefore round)
  if hbuffer : buffer = 0 then (.waiting, source, sink)
  else if sink.stopped && chance.stopBefore round then (.done count, source, sink)
  else
    match hread : source.readExact buffer with
    | (.failed .endedEarly, rest) => (.done count, rest, sink)
    | (.failed fault, rest) => (.failed fault, rest, sink)
    | (.waiting, rest) => (.done count, rest, sink)
    | (.done message, rest) =>
      have := Source.size_lt_of_readExact (Nat.pos_of_ne_zero hbuffer) hread
      match sink.writeAll message with
      | (.failed fault, sink) => (.failed fault, rest, sink)
      | (.waiting, sink) => (.waiting, rest, sink)
      | (.done _, sink) => echoFrom chance buffer (round + 1) rest sink (count + 1)
termination_by source.size

/-- Echoes messages of `buffer` bytes. -/
def echo (chance : Chance) (buffer : Nat) (source : Source) (sink : Sink) :
    Reading Nat × Source × Sink :=
  echoFrom chance buffer 0 source sink 0

end LinkMeter.Transfer
