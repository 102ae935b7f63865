import LinkMeter.Pacing.Clock

/-!
# Pacing a sender

A pacer gives a sender a budget of bytes per window.  While some of the budget
is left it bounds the next write; once the budget is spent the sender pauses
for what is left of the window and a new window starts.  A budget of zero means
that the sender is not paced.

A pacer never reads a clock: each operation is told the instant at which it
happens, and recording bytes is told the instant after the pause as well.
-/

namespace LinkMeter.Pacing

/-- What a sender does next. -/
inductive Step where
  /-- Write at most so many bytes. -/
  | send (bytes : Nat)
  /-- The budget is spent: pause, then open a new window. -/
  | pause (nanos : Nat)
  deriving DecidableEq, Inhabited

/-- The bound on the first write of a window. -/
def firstChunk (budget buffer : Nat) : Nat :=
  if 0 < budget ∧ budget < buffer then budget else buffer

/-- What follows after `sent` bytes of a window, `elapsed` after its start. -/
def step (budget sent buffer elapsed wait : Nat) : Step :=
  if budget = 0 then .send buffer
  else if sent < budget then .send (min (budget - sent) buffer)
  else .pause (wait - elapsed)

structure Pacer where
  lastTick : Instant
  /-- Bytes per window, zero for no limit. -/
  budget : Nat
  buffer : Nat
  start : Instant
  /-- The length of the window, as it was at its start. -/
  wait : Nat
  /-- Bytes recorded in the window. -/
  sent : Nat
  /-- The bound on the next write. -/
  allowance : Nat
  deriving DecidableEq, Inhabited

namespace Pacer

/-- A pacer with a budget, whose first window opens now. -/
def withBudget (lastTick now : Instant) (budget buffer : Nat) : Pacer where
  lastTick := lastTick
  budget := budget
  buffer := buffer
  start := now
  wait := waitFrom lastTick now
  sent := 0
  allowance := firstChunk budget buffer

/-- A pacer for a rate in bits per second. -/
def begin (lastTick now : Instant) (bitsPerSecond : UInt64) (buffer : Nat) : Pacer :=
  withBudget lastTick now (bitsPerSecond.toNat / 8) buffer

def isUnlimited (pacer : Pacer) : Bool := pacer.budget == 0

/-- What the bytes recorded so far ask for at an instant. -/
def next (pacer : Pacer) (now : Instant) : Step :=
  step pacer.budget pacer.sent pacer.buffer (now - pacer.start) pacer.wait

/-- The pacer with the next write bounded, or with a new window opened at the
end of the pause. -/
def enforce (pacer : Pacer) (now afterPause : Instant) : Pacer :=
  match pacer.next now with
  | .send bytes => { pacer with allowance := bytes }
  | .pause _ => withBudget pacer.lastTick afterPause pacer.budget pacer.buffer

/-- The pacer with more bytes counted in its window. -/
def count (pacer : Pacer) (bytes : Nat) : Pacer := { pacer with sent := pacer.sent + bytes }

/-- The pacer after a tick of the statistics clock, if there was one. -/
def tick (pacer : Pacer) (ticked : Option Instant) : Pacer :=
  { pacer with lastTick := ticked.getD pacer.lastTick }

/-- Records bytes just sent. -/
def record (pacer : Pacer) (bytes : Nat) (now afterPause : Instant) : Pacer :=
  if pacer.isUnlimited then pacer else (pacer.count bytes).enforce now afterPause

/-- Records bytes just sent, if 64 bits can count them in the window. -/
def record? (pacer : Pacer) (bytes : Nat) (now afterPause : Instant) : Option Pacer :=
  if !pacer.isUnlimited && pacer.sent + bytes ≥ UInt64.size then none
  else some (pacer.record bytes now afterPause)

/-- How long the sender pauses when it records bytes; no pause at all is told
apart from a pause that is already over. -/
def pauseFor (pacer : Pacer) (bytes : Nat) (now : Instant) : Option Nat :=
  if pacer.isUnlimited then none
  else
    match (pacer.count bytes).next now with
    | .send _ => none
    | .pause nanos => some nanos

/-- Whether the sender sleeps when it records bytes. -/
def sleeps (pacer : Pacer) (bytes : Nat) (now : Instant) : Bool :=
  match pacer.pauseFor bytes now with
  | some nanos => nanos > 0
  | none => false

end Pacer

end LinkMeter.Pacing
