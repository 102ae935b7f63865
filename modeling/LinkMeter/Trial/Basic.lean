import LinkMeter.Outcome.Reduce
import LinkMeter.Pacing.Clock
import LinkMeter.Request

/-!
# Trials

A trial is one running measurement against one peer, and the way its outcomes
take.  Workers add samples.  A trial with a reducer buffers them, and publishing
reduces the whole buffer to one outcome; a trial without one lets every sample
through as it is.  An outcome that leaves the trial is emitted: it becomes the
latest one and enters a queue, from which one consumer receives it.

Emitting never waits.  When the queue is full, or nobody will ever receive from
it again, the outcome is dropped from the queue and is still the latest one.
-/

namespace LinkMeter

open Pacing (Instant)

/-- One running measurement against one peer. -/
structure Trial where
  measurement : Measurement
  peer : Endpoint
  request : Request := {}
  /-- How buffered samples are reduced, or nothing if they are not buffered. -/
  reducer : Option Reducer := none
  /-- The time between two publications, in nanoseconds. -/
  interval : Nat := 0
  /-- Samples waiting for the next publication. -/
  buffered : List Outcome := []
  latest : Option Outcome := none
  /-- Emitted outcomes that are not received yet. -/
  queue : List Outcome := []
  /-- Whether the consuming end of the queue was handed out. -/
  isClaimed : Bool := false
  /-- Whether the consuming end of the queue is gone for good. -/
  isClosed : Bool := false
  /-- Whether the peer fell silent. -/
  isDormant : Bool := false
  /-- Whether the trial goes on; kept beside the signal that it was finished. -/
  isActive : Bool := true
  /-- Whether the trial was finished; everything that works on it ends then. -/
  isDone : Bool := false
  /-- The last sign of life from the peer. -/
  lastAccess : Instant := 0
  lastPublish : Instant := 0
  /-- The last tick of the trial's statistics clock. -/
  lastTick : Instant := 0
  /-- How many users hold the trial. -/
  references : Nat := 0
  deriving DecidableEq, Inhabited

inductive Publication where
  /-- There was nothing to reduce. -/
  | nothing
  | emitted (outcome : Outcome)
  /-- The samples have a total that does not fit. -/
  | overflowed
  deriving DecidableEq, Inhabited

namespace Publication

def outcome? : Publication → Option Outcome
  | emitted outcome => some outcome
  | nothing | overflowed => none

end Publication

namespace Trial

/-- The number of outcomes that the queue holds. -/
def queueCapacity : Nat := 64

def start (now : Instant) (measurement : Measurement) (peer : Endpoint) (request : Request)
    (reducer : Option Reducer) (interval : Nat) : Trial :=
  { measurement, peer, request, reducer, interval
    lastAccess := now, lastPublish := now, lastTick := now }

/-- The address that the trial dials: without a port where there are none. -/
def target (trial : Trial) : String :=
  match trial.measurement.transport with
  | .icmp => trial.peer.address.text
  | .tcp | .udp => trial.peer.text

/-- Whether somebody can publish once per interval: one of no length never
passes, and the end of one that is too long is not an instant. -/
def isPeriodic (trial : Trial) : Bool := 0 < trial.interval && trial.interval < Pacing.horizon

/-! ## Emitting -/

/-- Puts an outcome into the queue, or drops it. -/
def enqueue (trial : Trial) (outcome : Outcome) : Trial :=
  if trial.isClosed || trial.queue.length ≥ queueCapacity then trial
  else { trial with queue := trial.queue ++ [outcome] }

/-- Makes an outcome the latest one and queues it. -/
def emit (trial : Trial) (outcome : Outcome) : Trial :=
  { trial with latest := some outcome }.enqueue outcome

def add (trial : Trial) (sample : Outcome) : Trial :=
  match trial.reducer with
  | none => trial.emit sample
  | some _ => { trial with buffered := trial.buffered ++ [sample] }

/-- The whole seconds since the last publication, but at least one. -/
def publishSeconds (trial : Trial) (now : Instant) : UInt64 :=
  UInt64.ofNat (max ((now - trial.lastPublish) / 1_000_000_000) 1)

/-- Takes the buffered samples, reduces them and emits the outcome.  Samples
that cannot be reduced are gone all the same. -/
def publish (trial : Trial) (now : Instant) : Publication × Trial :=
  match trial.reducer with
  | none => (.nothing, trial)
  | some reducer =>
    let emptied := { trial with lastPublish := now, buffered := [] }
    if trial.buffered.isEmpty then (.nothing, emptied)
    else
      match reducer.reduce? (trial.publishSeconds now) trial.buffered with
      | some outcome => (.emitted outcome, emptied.emit outcome)
      | none => (.overflowed, emptied)

/-! ## Receiving -/

/-- Hands out the consuming end of the queue, to the first who asks. -/
def claim (trial : Trial) : Bool × Trial :=
  (!trial.isClaimed, { trial with isClaimed := true })

def receive (trial : Trial) : Option Outcome × Trial :=
  match trial.queue with
  | [] => (none, trial)
  | outcome :: rest => (some outcome, { trial with queue := rest })

def drain (trial : Trial) : List Outcome × Trial := (trial.queue, { trial with queue := [] })

/-- Ends receiving for good. -/
def close (trial : Trial) : Trial := { trial with isClosed := true, queue := [] }

/-! ## Life and references -/

/-- Finishes the trial; tells whether it was not finished before. -/
def finish (trial : Trial) : Bool × Trial :=
  (!trial.isDone, { trial with isActive := false, isDone := true })

/-- Notes a sign of life from the peer. -/
def touch (trial : Trial) (now : Instant) : Trial :=
  { trial with lastAccess := now, isDormant := false }

def setDormant (trial : Trial) : Trial := { trial with isDormant := true }

/-- The nanoseconds since the last sign of life. -/
def idleFor (trial : Trial) (now : Instant) : Nat := now - trial.lastAccess

def acquire (trial : Trial) : Trial := { trial with references := trial.references + 1 }

/-- Gives one reference back; tells how many are left. -/
def release (trial : Trial) : Nat × Trial :=
  (trial.references - 1, { trial with references := trial.references - 1 })

def tick (trial : Trial) (now : Instant) : Trial := { trial with lastTick := now }

/-! ## What each operation changes -/

@[simp] theorem latest_emit (trial : Trial) (outcome : Outcome) :
    (trial.emit outcome).latest = some outcome := by
  simp only [emit, enqueue]
  split <;> rfl

@[simp] theorem buffered_emit (trial : Trial) (outcome : Outcome) :
    (trial.emit outcome).buffered = trial.buffered := by
  simp only [emit, enqueue]
  split <;> rfl

end Trial

end LinkMeter
