import LinkMeter.Client.Run
import LinkMeter.Console.Line
import LinkMeter.Registry.Basic
import LinkMeter.Settings.Basic

/-!
# Clients

A client runs the measurement that its settings describe, any number of times.
It keeps the outcomes and the summary of the last run and registers the trial of
each run while it lasts.
-/

namespace LinkMeter

open Pacing (Instant)

structure Client where
  settings : Settings
  registry : Registry := {}
  history : List Outcome := []
  summary : Option Summary := none
  lastTrial : Option Serial := none
  deriving Inhabited

namespace Client

/-- A client with settings that it can run. -/
def ofSettings (settings : Settings) : Except Failure Client :=
  match settings.validate with
  | .ok _ => .ok { settings := settings }
  | .error fault => .error fault.failure

/-! ## Before a run -/

/-- A host without the brackets around it. -/
def bareHost (host : String) : List Char :=
  ((host.toList.dropWhile (· = '[')).reverse.dropWhile (· = ']')).reverse

/-- The endpoint to measure against.  A host that is not an address is looked
up. -/
def remote (client : Client) (lookUp : List Char → Except String Address) :
    Except Failure Endpoint :=
  match client.settings.serverAddress with
  | none => .error (.settings "Server address is required")
  | some host =>
    match Address.read? (bareHost host) with
    | some address => .ok ⟨address, client.settings.port, 0⟩
    | none =>
      match lookUp (bareHost host) with
      | .ok address => .ok ⟨address, client.settings.port, 0⟩
      | .error reason =>
        .error (.connection ("Failed to resolve " ++ host ++ ": " ++ reason))

/-- The number of workers that a measurement takes. -/
def workerCount (settings : Settings) : Nat :=
  match settings.transport, settings.kind with
  | .tcp, .bandwidth | .tcp, .connectionRate | .udp, .bandwidth | .udp, .packetRate =>
    max 1 settings.threads.toNat
  | _, _ => 1

/-- The client at the beginning of a run, and the trial of the run. -/
def register (client : Client) (wall : Instant) (remote : Endpoint) :
    Except Failure (Serial × Trial × Client) :=
  let measurement := client.settings.measurement
  match client.registry.create wall remote measurement client.settings.request
      (Reducer.ofKind? measurement.kind) client.settings.interval.nanos with
  | (.error failure, _) => .error failure
  | (.ok serial, registry) =>
    match registry.trial? serial with
    | none => .error (.trial "test failed")
    | some trial =>
      .ok (serial, trial, { client with
        registry := registry, history := [], summary := none, lastTrial := some serial })

/-! ## After a run -/

/-- The client after a run of one of its trials. -/
def absorb (client : Client) (serial : Serial) (run : Run) : Client :=
  let registry := client.registry.change serial fun _ => run.trial
  { client with
    registry := (registry.delete run.trial.peer.address run.trial.measurement).2
    history := run.history
    summary := run.summary }

/-- What the console is told in a run. -/
def entries (run : Run) : List Console.Entry :=
  run.history.map fun outcome =>
    ⟨run.trial.measurement, outcome.success, run.trial.peer, outcome.report⟩

/-- Runs the measurement with workers that know the trial that they work on. -/
def run (client : Client) (wall : Instant) (elapsed : Span)
    (lookUp : List Char → Except String Address) (works : Trial → List Work) :
    Except Failure Run × Client :=
  let client := { client with history := [], summary := none }
  match client.remote lookUp with
  | .error failure => (.error failure, client)
  | .ok remote =>
    match client.register wall remote with
    | .error failure => (.error failure, client)
    | .ok (serial, trial, client) =>
      let works := works trial
      let run := (Run.start trial works.length).play
        (schedule works trial.interval wall elapsed)
      (.ok run, client.absorb serial run)

/-! ## With scripted probes -/

/-- The worker of a trial whose probes are scripted. -/
def probingWork (settings : Settings) (names : Path.Names) (script : Path.Script)
    (trial : Trial) : Work × Path.Script :=
  let destination := trial.peer.address
  match trial.measurement.kind with
  | .path => pathWork names destination settings.maxHops script
  | .pathMonitor => monitorWork names destination settings.maxHops script
  | _ => pingWork destination script

end Client

end LinkMeter
