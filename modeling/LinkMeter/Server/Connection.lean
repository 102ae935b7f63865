import LinkMeter.Server.Basic
import LinkMeter.Transfer.Pump
import LinkMeter.Wire.Handshake

/-!
# Connections of a server

A connection begins with a handshake and goes on with one exchange of data.  One
whose handshake fails is counted and nothing else; one whose handshake takes too
long is dropped.  A request that the server does not serve ends the connection
before a trial is opened for it.

A connection that is served holds a reference to the trial of its peer from
`Server.greet` to `Server.depart`, so whatever other connections do in between,
the trial is still the registered one when the connection adds to it.  How many
bytes go in which direction is what the connection asked for; the rate is the
one of the trial, which the first of its connections brought along.

Between the checks of a request and the opening of its trial the socket is told
not to hold small segments back.  That fails only on a socket that is broken
already, and a connection that meets it ends there without a trial, as a dropped
one does; `Server.greet` has no case of its own for it.
-/

namespace LinkMeter

open Transfer (Chance)
open Wire (Progress Sink Source)

/-- Why a server does not serve what a connection asks for. -/
inductive Refusal where
  | notServed (measurement : Measurement)
  | bufferTooLarge (size : UInt32)
  deriving DecidableEq, Inhabited, Repr

namespace Refusal

/-- The largest buffer that a connection may ask for. -/
def maxBufferSize : UInt32 := 4 * 1024 * 1024

def failure : Refusal → Failure
  | notServed measurement => .protocol (measurement.label ++ " is not served over TCP")
  | bufferTooLarge size =>
    .protocol ("Buffer size " ++ Decimal.text size.toNat ++ " exceeds " ++
      Decimal.text maxBufferSize.toNat)

/-- Why a request is refused, if it is. -/
def of? (measurement : Measurement) (request : Request) : Option Refusal :=
  if measurement ≠ .tcpBandwidth ∧ measurement ≠ .tcpLatency then
    some (.notServed measurement)
  else if request.bufferSize > maxBufferSize then some (.bufferTooLarge request.bufferSize)
  else none

end Refusal

/-- What a server decides about a connection after its handshake. -/
inductive Admission where
  /-- The connection is served; it holds a reference to a trial. -/
  | served (serial : Serial) (measurement : Measurement) (request : Request)
  /-- The handshake failed, and the connection was counted. -/
  | counted
  | refused (refusal : Refusal)
  /-- The handshake took too long. -/
  | dropped
  deriving DecidableEq, Inhabited

/-- What the exchange of data on a connection came to. -/
structure Exchanged where
  /-- The samples handed over, in order. -/
  samples : List Outcome := []
  /-- The bytes moved or the messages echoed. -/
  amount : Nat := 0
  fault : Option IoFault := none
  source : Source := []
  sink : Sink := {}
  deriving Inhabited

namespace Exchanged

def echoing (chance : Chance) (buffer : Nat) (source : Source) (sink : Sink) : Exchanged :=
  match Transfer.echo chance buffer source sink with
  | (.done count, source, sink) => { amount := count, source, sink }
  | (.failed fault, source, sink) => { fault := some fault, source, sink }
  | (.waiting, source, sink) => { source, sink }

/-- Sends at the rate of a trial. -/
def sending (chance : Chance) (trial : Trial) (buffer : Nat) (source : Source) (sink : Sink) :
    Exchanged :=
  match Transfer.send? chance trial.lastTick trial.lastTick trial.request.rate buffer
      (sink.script.getD []) with
  | some sent =>
    { samples := sent.samples, amount := sent.total.toNat, fault := sent.fault, source, sink }
  | none => { source, sink }

/-- Receives until the peer is done. -/
def receiving (chance : Chance) (buffer : Nat) (source : Source) (sink : Sink) : Exchanged :=
  let received := Transfer.receive chance buffer source
  { samples := received.samples, amount := received.total.toNat, fault := received.fault
    source := received.rest, sink }

/-- The exchange that a connection asked for, on the trial that it holds. -/
def ofRequest (chance : Chance) (trial : Trial) (measurement : Measurement) (request : Request)
    (source : Source) (sink : Sink) : Exchanged :=
  let buffer := max 1 request.bufferSize.toNat
  if measurement.kind = .latency then echoing chance buffer source sink
  else if request.reverse then sending chance trial buffer source sink
  else receiving chance buffer source sink

end Exchanged

namespace Server

/-- How long a handshake may take. -/
def handshakeTime : Nat := 5 * 1_000_000_000

/-- What becomes of a connection after its handshake, which never ends if it
takes too long. -/
def greet (server : Server) (peer : Endpoint) :
    Progress (Measurement × Request) → Admission × Server
  | .failed _ => (.counted, server.countConnection peer)
  | .waiting => (.dropped, server)
  | .done (measurement, request) =>
    match Refusal.of? measurement request with
    | some refusal => (.refused refusal, server)
    | none =>
      let (serial, server) := server.openTrial peer measurement request
      (.served serial measurement request, server)

def addSamples (server : Server) (serial : Serial) (samples : List Outcome) : Server :=
  { server with
    registry := server.registry.change serial fun trial => samples.foldl Trial.add trial }

/-- A connection gives its reference back. -/
def depart (server : Server) (serial : Serial) : Server :=
  { server with registry := (server.registry.release serial).2 }

/-- Serves a connection from its first byte to its end.  The first part of the
answer is the failure that a refused connection ends with. -/
def serve (server : Server) (peer : Endpoint) (chance : Chance) (source : Source)
    (sink : Sink) : Except Failure Exchanged × Server :=
  let (handshake, source, sink) := Wire.serverHandshake source sink
  match server.greet peer handshake with
  | (.counted, server) | (.dropped, server) => (.ok { source, sink }, server)
  | (.refused refusal, server) => (.error refusal.failure, server)
  | (.served serial measurement request, server) =>
    let trial := (server.registry.trial? serial).getD default
    let exchanged := Exchanged.ofRequest chance trial measurement request source sink
    (.ok exchanged, (server.addSamples serial exchanged.samples).depart serial)

end Server

end LinkMeter
