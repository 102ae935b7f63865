import LinkMeter.Address.Text
import LinkMeter.Failure
import LinkMeter.Measurement
import LinkMeter.Trial.Basic

/-!
# The registry of trials

Trials are registered by the address of their peer and their measurement.  All
trials of one address form a session, which exists as long as it has a trial.

A trial has an identity beyond its key: it is numbered in the order of creation
(`Serial`), and it keeps its number and can still be read after it has left the
registry.  Whoever obtains a trial by creating it holds a reference, which
`Registry.release` gives back; the trial leaves when the last reference is
given back, but only if it is still the one registered under its key.
-/

namespace LinkMeter

open Pacing (Instant)

/-- The number of a trial in the order of creation. -/
abbrev Serial := Nat

structure Session where
  address : Address
  trials : List (Measurement × Serial) := []
  count : Nat := 0
  deriving DecidableEq, Inhabited

namespace Session

def find? (session : Session) (measurement : Measurement) : Option Serial :=
  session.trials.lookup measurement

/-- The session with one more trial. -/
def insert (session : Session) (measurement : Measurement) (serial : Serial) : Session :=
  { session with
    trials := session.trials ++ [(measurement, serial)], count := session.count + 1 }

/-- The session without the trial of a measurement, which it has. -/
def erase (session : Session) (measurement : Measurement) : Session :=
  { session with
    trials := session.trials.filter fun entry => entry.1 != measurement
    count := session.count - 1 }

end Session

/-- All trials of a server or client. -/
structure Registry where
  /-- Every trial that was ever created, by its number. -/
  trials : List Trial := []
  sessions : List (Address × Session) := []
  deriving DecidableEq, Inhabited

namespace Registry

/-! ## Looking up -/

def session? (registry : Registry) (address : Address) : Option Session :=
  registry.sessions.lookup address

/-- The number of the trial that is registered under a key. -/
def find? (registry : Registry) (address : Address) (measurement : Measurement) :
    Option Serial :=
  (registry.session? address).bind (·.find? measurement)

/-- The trial with a number, registered or not. -/
def trial? (registry : Registry) (serial : Serial) : Option Trial := registry.trials[serial]?

/-- The numbers of all registered trials, session by session. -/
def registered (registry : Registry) : List Serial :=
  registry.sessions.flatMap fun (_, session) => session.trials.map (·.2)

def isEmpty (registry : Registry) : Bool := registry.sessions.isEmpty

/-! ## Changing one part -/

/-- An operation on the trial with a number. -/
def change (registry : Registry) (serial : Serial) (operation : Trial → Trial) : Registry :=
  { registry with trials := registry.trials.modify serial operation }

/-- An operation, with an answer, on the trial with a number. -/
def act {α : Type} (registry : Registry) (serial : Serial) (operation : Trial → α × Trial) :
    Option α × Registry :=
  match registry.trial? serial with
  | some trial =>
    let (answer, trial) := operation trial
    (some answer, registry.change serial fun _ => trial)
  | none => (none, registry)

/-- The registry with the session of an address replaced or added. -/
def putSession (registry : Registry) (address : Address) (session : Session) : Registry :=
  if (registry.session? address).isSome then
    { registry with sessions := registry.sessions.map fun entry =>
        if entry.1 = address then (address, session) else entry }
  else { registry with sessions := registry.sessions ++ [(address, session)] }

/-- The registry without the session of an address. -/
def dropSession (registry : Registry) (address : Address) : Registry :=
  { registry with sessions := registry.sessions.filter fun entry => entry.1 != address }

/-! ## Creating -/

/-- The trial under a key, created if there is none, and whether it is new.  The
caller holds a reference to it. -/
def createOrGet (registry : Registry) (now : Instant) (peer : Endpoint)
    (measurement : Measurement) (request : Request) (reducer : Option Reducer)
    (interval : Nat) : (Serial × Bool) × Registry :=
  let session := (registry.session? peer.address).getD { address := peer.address }
  match session.find? measurement with
  | some serial => ((serial, false), registry.change serial Trial.acquire)
  | none =>
    let serial := registry.trials.length
    let trial := (Trial.start now measurement peer request reducer interval).acquire
    ((serial, true), { registry with trials := registry.trials ++ [trial] }.putSession
      peer.address (session.insert measurement serial))

/-- The failure to create a trial under a key that is taken. -/
def duplicate (measurement : Measurement) (address : Address) : Failure :=
  .duplicateTrial (measurement.label ++ " for " ++ address.text)

/-- The second half of creating a new trial.  Somebody else may have created one
since the first half found none; the reference to it is given back. -/
def createUnregistered (registry : Registry) (now : Instant) (peer : Endpoint)
    (measurement : Measurement) (request : Request) (reducer : Option Reducer)
    (interval : Nat) : Except Failure Serial × Registry :=
  match registry.createOrGet now peer measurement request reducer interval with
  | ((serial, true), registry) => (.ok serial, registry)
  | ((serial, false), registry) =>
    (.error (duplicate measurement peer.address),
      registry.change serial fun trial => trial.release.2)

/-- Creates a new trial under a key that is free. -/
def create (registry : Registry) (now : Instant) (peer : Endpoint) (measurement : Measurement)
    (request : Request) (reducer : Option Reducer) (interval : Nat) :
    Except Failure Serial × Registry :=
  if (registry.find? peer.address measurement).isSome then
    (.error (duplicate measurement peer.address), registry)
  else registry.createUnregistered now peer measurement request reducer interval

/-! ## Deleting -/

/-- Takes the trial under a key out of the registry, and its session with the
last one. -/
def remove (registry : Registry) (address : Address) (measurement : Measurement) :
    Option Serial × Registry :=
  match registry.session? address with
  | none => (none, registry)
  | some session =>
    match session.find? measurement with
    | none => (none, registry)
    | some serial =>
      let session := session.erase measurement
      (some serial,
        if session.count = 0 then registry.dropSession address
        else registry.putSession address session)

/-- Removes and finishes the trial under a key, whoever holds it; tells whether
there was one. -/
def delete (registry : Registry) (address : Address) (measurement : Measurement) :
    Bool × Registry :=
  match registry.remove address measurement with
  | (some serial, registry) => (true, registry.change serial fun trial => trial.finish.2)
  | (none, registry) => (false, registry)

/-- Gives back one reference to a trial, and deletes it when that was the last
one and the trial is still registered; tells whether it was deleted. -/
def release (registry : Registry) (serial : Serial) : Bool × Registry :=
  match registry.trial? serial with
  | none => (false, registry)
  | some trial =>
    let (left, released) := trial.release
    let registry := registry.change serial fun _ => released
    if left > 0 then (false, registry)
    else if registry.find? trial.peer.address trial.measurement = some serial then
      registry.delete trial.peer.address trial.measurement
    else (false, registry)

end Registry

end LinkMeter
