import LinkMeter.Path.Monitor
import LinkMeter.Transfer.RoundTrips
import LinkMeter.Trial.Basic
import LinkMeter.Wire.Handshake

/-!
# Workers of a client

A worker adds samples to a trial or emits outcomes, one after the other, and
then returns, fails, or stays at work until it is told to stop; on being told it
may still have something to add.  That course of deeds is all that a run needs
to know of a worker (`Work`).  The functions here derive it from what the worker
meets: the connection that it dials, or the probes that it sends.
-/

namespace LinkMeter.Client

open Icmp (Finding ProbeId)
open LinkMeter.Path (Names Script)
open Transfer (Chance RoundTripPlan)
open Wire (Sink Source)

/-- One thing that a worker does to its trial. -/
inductive Deed where
  | add (sample : Outcome)
  /-- It emits an outcome past the buffer. -/
  | emit (outcome : Outcome)
  deriving DecidableEq, Inhabited

/-- How the course of a worker ends. -/
inductive Parting where
  | returns
  | fails (failure : Failure)
  /-- It works on until it is told to stop, and then returns. -/
  | stays
  deriving DecidableEq, Inhabited

structure Work where
  deeds : List Deed := []
  /-- How many nanoseconds the worker rests between two deeds. -/
  pause : Nat := 0
  parting : Parting := .returns
  /-- What a worker that stays does when it is told to stop. -/
  closing : List Deed := []
  deriving DecidableEq, Inhabited

namespace Work

/-- The course of a worker that fails at once. -/
def failing (failure : Failure) : Work := { parting := .fails failure }

/-- The course of a worker that adds samples until its stream ends. -/
def adding (samples : List Outcome) (fault : Option IoFault) : Work where
  deeds := samples.map .add
  parting := match fault with
    | some fault => .fails (.io fault)
    | none => .returns

end Work

/-! ## Over a connection -/

/-- A connection, as a worker meets it. -/
structure Connection where
  source : Source
  sink : Sink := {}
  chance : Chance := .still
  /-- How long the round trips on it take. -/
  lasting : Nat → Span := fun _ => Span.zero

/-- What comes of dialing. -/
abbrev Dialed := Except IoFault Connection

/-- The failure to connect. -/
def unreached (remote : Endpoint) (fault : IoFault) : Failure :=
  .connection ("Failed to connect to " ++ remote.text ++ ": " ++ fault.message)

/-- Dials, shakes hands and goes on with what follows on the connection. -/
def afterHandshake (trial : Trial) (dialed : Dialed)
    (work : Connection → Source → Sink → Work) : Work :=
  match dialed with
  | .error fault => .failing (unreached trial.peer fault)
  | .ok connection =>
    match Wire.clientHandshake trial.measurement trial.request connection.source
        connection.sink with
    | (.failed failure, _, _) => .failing failure
    | (.waiting, _, _) => { parting := .stays }
    | (.done _, source, sink) => work connection source sink

/-- Moves bytes in one direction. -/
def bandwidthWork (trial : Trial) (dialed : Dialed) : Work :=
  afterHandshake trial dialed fun connection source sink =>
    let buffer := max 1 trial.request.bufferSize.toNat
    if trial.request.reverse then
      let received := Transfer.receive connection.chance buffer source
      .adding received.samples received.fault
    else
      match Transfer.send? connection.chance trial.lastTick trial.lastTick trial.request.rate
          buffer (sink.script.getD []) with
      | some sent => .adding sent.samples sent.fault
      | none => {}

def latencyWork (trial : Trial) (dialed : Dialed) : Work :=
  afterHandshake trial dialed fun connection source sink =>
    let measured := Transfer.measure connection.chance (RoundTripPlan.ofRequest trial.request)
      connection.lasting source sink
    .adding measured.samples measured.fault

/-- Connects over and over; the list tells what comes of it each time, and past
its end the worker is told to stop. -/
def connectionsWork (trial : Trial) (attempts : List (Option IoFault)) : Work :=
  let connected := (attempts.takeWhile (·.isNone)).length
  { deeds := if connected = 0 then [] else [.add (.connections (UInt64.ofNat connected))]
    parting := match attempts.find? (·.isSome) with
      | some (some fault) => .fails (unreached trial.peer fault)
      | _ => .stays }

/-- Times connections, one after each gap; one that is refused or late counts as
lost. -/
def connectPingWork (gap : Nat) (attempts : List (Option Span)) : Work where
  deeds := attempts.map fun roundTrip => .add (.pingAttempt roundTrip)
  pause := gap
  parting := .stays

/-- Sends datagrams through a socket, or fails to open one. -/
def datagramWork (opened : Except IoFault (List Outcome)) : Work :=
  match opened with
  | .error fault => .failing (.io fault)
  | .ok samples => { deeds := samples.map .add, parting := .stays }

/-! ## With probes -/

/-- The number of the hop that pings are sent as: the longest way. -/
def pingHop : UInt8 := 254

/-- The round trip of a ping, which the destination itself has to answer. -/
def pingRoundTrip? (destination : Address) (finding : Finding) : Option Span :=
  if finding.isReplyFrom destination then finding.roundTrip? else none

/-- Sends up to `fuel` pings. -/
def pingFrom (destination : Address) : Nat → UInt8 → Script → Work × Script
  | 0, _, script => ({ parting := .stays }, script)
  | fuel + 1, attempt, script =>
    match script.await? ⟨pingHop, attempt⟩ with
    | (none, script) => ({ parting := .stays }, script)
    | (some (.error failure), script) => (.failing failure, script)
    | (some (.ok finding), script) =>
      let (work, script) := pingFrom destination fuel (attempt + 1) script
      ({ work with
        deeds := .add (.pingAttempt (pingRoundTrip? destination finding)) :: work.deeds }, script)

/-- Pings the destination until a probe does not come back, or fails.  Every
ping uses up an answer of the script, or is the first one. -/
def pingWork (destination : Address) (script : Script) : Work × Script :=
  pingFrom destination (script.size + 2) 0 script

/-- Discovers the path once. -/
def pathWork (names : Names) (destination : Address) (maxHops : UInt8) (script : Script) :
    Work × Script :=
  match Path.discover Script.send names destination maxHops script with
  | (.ok hops, script) => ({ deeds := [.emit (.path hops)] }, script)
  | (.error failure, script) => (.failing failure, script)

/-- Discovers the path and monitors it until told to stop, or until a probe
fails fatally; a snapshot is emitted at the beginning and at the end. -/
def monitorWork (names : Names) (destination : Address) (maxHops : UInt8) (script : Script) :
    Work × Script :=
  match Path.discover Script.send names destination maxHops script with
  | (.error failure, script) => (.failing failure, script)
  | (.ok found, script) =>
    let first := Deed.emit (.path found)
    match Path.rounds names found script with
    | (hops, some failure, script) =>
      ({ deeds := [first, .emit (.path hops)], parting := .fails failure }, script)
    | (hops, none, script) =>
      ({ deeds := [first], parting := .stays, closing := [.emit (.path hops)] }, script)

/-- The course of a worker that fails where it would have stayed. -/
def Work.failingInstead (work : Work) (failure : Failure) : Work :=
  match work.parting with
  | .stays => { deeds := work.deeds ++ work.closing, parting := .fails failure }
  | _ => work

end LinkMeter.Client
