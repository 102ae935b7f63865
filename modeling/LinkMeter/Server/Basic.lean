import LinkMeter.Console.Line
import LinkMeter.Counters.Reading
import LinkMeter.Registry.Overview
import LinkMeter.Registry.Sweep
import LinkMeter.Transfer.Tally
import LinkMeter.Trial.Crew

/-!
# The server

A server registers a trial for every peer that measures against it, counts
connections and datagrams into these trials, and tells the console what they
publish.  This module holds its state and everything that changes it at once;
what happens with time is in `LinkMeter.Server.Clock`.

Every trial that the server opens has a publisher and a reporter.  A connection
without a handshake counts as one connection; the trial that counts it is held
for two seconds.  Datagrams are tallied per address and handed to the trial of
the address now and then.
-/

namespace LinkMeter

open Pacing (Instant)
open Transfer (Tally)

/-- Something that a server does at an instant. -/
inductive Duty where
  /-- The publisher of a trial publishes. -/
  | publish (serial : Serial)
  /-- The reference that a counted connection holds is given back. -/
  | linger (serial : Serial)
  /-- Silent peers are swept out. -/
  | sweep
  /-- The overview is told, with the traffic since an earlier one. -/
  | overview (before : Counters.Traffic)
  deriving DecidableEq, Inhabited

/-- An instant at which a server has something to do. -/
structure Alarm where
  due : Instant
  duty : Duty
  deriving DecidableEq, Inhabited

structure Server where
  /-- The time between two publications of a trial, in nanoseconds. -/
  interval : Nat := 1_000_000_000
  registry : Registry := {}
  /-- Those who serve each trial, by its number. -/
  crews : List Crew := []
  /-- Datagrams not yet handed to the trial of their address. -/
  tallies : List (Address × Serial × Tally) := []
  /-- What is to be done when, in the order in which it was decided. -/
  alarms : List Alarm := []
  /-- The instant up to which timers have fired. -/
  now : Instant := 0
  /-- The instant from which ages are counted. -/
  wall : Instant := 0
  /-- What the counters of the network stack will read, one time after the
  other; the last reading stays. -/
  readings : List Counters.Reading := []
  /-- Whether sweeps and overviews were stopped. -/
  isStopped : Bool := false
  /-- What the console was told about trials. -/
  entries : List Console.Entry := []
  overviews : List String := []
  deriving Inhabited

namespace Server

/-! ## Trials and those who serve them -/

/-- How long a counted connection holds its trial. -/
def lingerTime : Nat := 2 * 1_000_000_000

/-- The time between two overviews. -/
def overviewPeriod : Nat := 1_000_000_000

/-- A trial with those who serve it. -/
def live? (server : Server) (serial : Serial) : Option Live :=
  (server.registry.trial? serial).map fun trial =>
    { toCrew := server.crews.getD serial {}, trial := trial }

/-- The server with a trial and those who serve it replaced. -/
def putLive (server : Server) (serial : Serial) (live : Live) : Server :=
  { server with
    registry := server.registry.change serial fun _ => live.trial
    crews := server.crews.set serial live.toCrew }

/-- What the console is told about an outcome of a trial. -/
def entry (trial : Trial) (outcome : Outcome) : Console.Entry :=
  ⟨trial.measurement, outcome.success, trial.peer, outcome.report⟩

/-- Gives those who serve a trial their turns, tells the console what came out,
and sets an alarm for a publisher that waits for a new instant. -/
def settleOne (server : Server) (serial : Serial) : Server :=
  match server.live? serial with
  | none => server
  | some live =>
    let settled := live.wake.settle server.now server.wall
    let newDues := settled.dues.filter fun due => !live.dues.contains due
    { server.putLive serial { settled with reported := [] } with
      alarms := server.alarms ++ newDues.map fun due => ⟨due, .publish serial⟩
      entries := server.entries ++ settled.reported.map (entry settled.trial) }

/-- Gives everyone who can go on their turns. -/
def settle (server : Server) : Server :=
  (List.range server.registry.trials.length).foldl settleOne server

/-- An operation on the registry. -/
def actRegistry {α : Type} (server : Server) (operation : Registry → α × Registry) :
    α × Server :=
  let (answer, registry) := operation server.registry
  (answer, { server with registry := registry })

def setAlarm (server : Server) (delay : Nat) (duty : Duty) : Server :=
  { server with alarms := server.alarms ++ [⟨server.now + delay, duty⟩] }

/-- The trial of a peer for a measurement.  A new one gets a publisher and a
reporter that ends with it.  The caller holds a reference. -/
def openTrial (server : Server) (peer : Endpoint) (measurement : Measurement)
    (request : Request) : Serial × Server :=
  match server.registry.createOrGet server.wall peer measurement request
      (Reducer.ofKind? measurement.kind) server.interval with
  | ((serial, isNew), registry) =>
    let opened := { server with registry := registry }
    if isNew then
      let opened := { opened with crews := opened.crews ++ [({} : Crew)] }
      match opened.live? serial with
      | some live =>
        (serial, opened.putLive serial (live.startPublisher.startReporter (.publisher 0)).2)
      | none => (serial, opened)
    else (serial, opened)

/-! ## Connections without a handshake -/

/-- Counts one connection and holds its trial for a while. -/
def countConnection (server : Server) (peer : Endpoint) : Server :=
  let (serial, server) := server.openTrial peer .tcpConnectionRate {}
  { server with registry := server.registry.change serial (·.add (.connections 1)) }.setAlarm
    lingerTime (.linger serial)

/-! ## Datagrams -/

/-- Hands a tally to the trial that it belongs to. -/
def handOver (registry : Registry) (serial : Serial) (tally : Tally) : Registry × Tally :=
  let (samples, tally) := tally.flush
  (registry.change serial fun trial => samples.foldl Trial.add trial, tally)

/-- The tally of an address for a trial.  A tally for an earlier trial is handed
over to that one first. -/
def tallyFor (server : Server) (address : Address) (serial : Serial) : Tally × Server :=
  match server.tallies.lookup address with
  | none => ({ counting := .packets }, server)
  | some (owner, tally) =>
    if owner = serial then (tally, server)
    else
      ({ counting := .packets },
        { server with registry := (handOver server.registry owner tally).1 })

/-- The server with the tally of an address replaced or added. -/
def putTally (server : Server) (address : Address) (serial : Serial) (tally : Tally) : Server :=
  if (server.tallies.lookup address).isSome then
    { server with tallies := server.tallies.map fun entry =>
        if entry.1 = address then (address, serial, tally) else entry }
  else { server with tallies := server.tallies ++ [(address, serial, tally)] }

/-- Counts one datagram of a peer, if the tally of the peer can hold it; `due`
tells whether the flush period of the tally is over. -/
def countDatagram? (server : Server) (peer : Endpoint) (length : UInt64) (due : Bool) :
    Option Server :=
  let (serial, server) := match server.registry.find? peer.address .udpServer with
    | some serial => (serial, server)
    | none => server.openTrial peer .udpServer {}
  let server := { server with
    registry := server.registry.change serial (·.touch server.wall) }
  let (tally, server) := server.tallyFor peer.address serial
  (tally.add? 1 length due).map fun (samples, tally) =>
    { server with registry :=
        server.registry.change serial fun trial => samples.foldl Trial.add trial }.putTally
      peer.address serial tally

/-- Hands over the tally of one address. -/
def flushTally (server : Server) (address : Address) : Server :=
  match server.tallies.lookup address with
  | none => server
  | some (serial, tally) =>
    let (registry, tally) := handOver server.registry serial tally
    { server with registry := registry }.putTally address serial tally

/-- Hands over all tallies, and forgets those of finished trials. -/
def flushTallies (server : Server) : Server :=
  let flushed := (server.tallies.map (·.1)).foldl flushTally server
  { flushed with tallies := flushed.tallies.filter fun (_, serial, _) =>
      !((flushed.registry.trial? serial).map (·.isDone)).getD true }

end Server

end LinkMeter
