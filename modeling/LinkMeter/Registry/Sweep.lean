import LinkMeter.Registry.Basic

/-!
# Sweeping out silent peers

Datagrams open no connection, so nothing tells when a peer is done.  A sweep
looks at the age of the last sign of life: a datagram trial that is old enough
is deleted, a younger one may become dormant.  Trials over other transports are
left alone, however old they are.
-/

namespace LinkMeter

open Pacing (Instant)

/-- What a sweep does with a trial. -/
inductive Verdict where
  | keep
  | setDormant
  | delete
  deriving DecidableEq, Inhabited, Repr

namespace Trial

def verdict (trial : Trial) (now : Instant) (dormantAfter deleteAfter : Nat) : Verdict :=
  if trial.measurement.transport ≠ .udp then .keep
  else if trial.idleFor now ≥ deleteAfter then .delete
  else if trial.idleFor now ≥ dormantAfter then .setDormant
  else .keep

end Trial

namespace Registry

/-- The keys and numbers of all registered trials. -/
def entries (registry : Registry) : List (Address × Measurement × Serial) :=
  registry.sessions.flatMap fun (_, session) =>
    session.trials.map fun (measurement, serial) => (session.address, measurement, serial)

/-- What a sweep does with the trial with a number. -/
def verdict (registry : Registry) (now : Instant) (dormantAfter deleteAfter : Nat)
    (serial : Serial) : Verdict :=
  match registry.trial? serial with
  | some trial => trial.verdict now dormantAfter deleteAfter
  | none => .keep

/-- Deletes the trials under some keys; tells how many there were. -/
def deleteAll : List (Address × Measurement) → Registry → Nat × Registry
  | [], registry => (0, registry)
  | (address, measurement) :: rest, registry =>
    let (deleted, registry) := registry.delete address measurement
    let (count, registry) := deleteAll rest registry
    ((if deleted then 1 else 0) + count, registry)

def setAllDormant (serials : List Serial) (registry : Registry) : Registry :=
  serials.foldl (fun registry serial => registry.change serial Trial.setDormant) registry

/-- Makes datagram trials dormant that have been idle for `dormantAfter`
nanoseconds and deletes those that have been idle for `deleteAfter`; tells how
many it deleted. -/
def sweep (registry : Registry) (now : Instant) (dormantAfter deleteAfter : Nat) :
    Nat × Registry :=
  let judged (verdict : Verdict) := registry.entries.filter fun (_, _, serial) =>
    registry.verdict now dormantAfter deleteAfter serial == verdict
  deleteAll ((judged .delete).map fun (address, measurement, _) => (address, measurement))
    (setAllDormant ((judged .setDormant).map fun (_, _, serial) => serial) registry)

/-- How long a server's datagram trials are idle before they become dormant. -/
def dormantAfter : Nat := 1_000_000_000

/-- How long a server's datagram trials are idle before they are deleted. -/
def deleteAfter : Nat := 2 * 1_000_000_000

/-- The time between two sweeps of a server. -/
def sweepPeriod : Nat := 100_000_000

end Registry

end LinkMeter
