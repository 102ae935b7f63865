import LinkMeter.Server.Basic

/-!
# What a server does with time

Alarms tell what is to be done when.  They go off in the order of their
instants, and at one instant in the order in which they were set.  Sweeps and
overviews set their next alarm when they happen; a publisher sets its own in its
turn.
-/

namespace LinkMeter

open Pacing (Instant)

namespace Server

/-! ## Alarms -/

/-- The alarm that goes off first, and the others. -/
def earliest? : List Alarm → Option (Alarm × List Alarm)
  | [] => none
  | alarm :: rest =>
    match earliest? rest with
    | none => some (alarm, [])
    | some (next, others) =>
      if alarm.due ≤ next.due then some (alarm, rest) else some (next, alarm :: others)

/-- The counters of the network stack, read once more. -/
def read (server : Server) : Counters.Reading × Server :=
  match server.readings with
  | [] => ({}, server)
  | [reading] => (reading, server)
  | reading :: rest => (reading, { server with readings := rest })

/-- The line that tells the overview and what went on since some earlier traffic,
if all of that fits. -/
def overviewLine? (server : Server) (before after : Counters.Traffic) : Option (List String) := do
  let received ← Counters.bitGrowth? before.receivedBytes after.receivedBytes
  let sent ← Counters.bitGrowth? before.sentBytes after.sentBytes
  if server.registry.isEmpty then return []
  let overview ← Overview.ofRegistry? server.registry
  return [overview.line received sent (Counters.growth before.retransmits after.retransmits)]

/-- Tells the overview, unless nothing is registered, and sets the alarm for the
next one.  When something does not fit, overviews are at an end. -/
def tellOverview (server : Server) (before : Counters.Traffic) : Server :=
  let (reading, server) := server.read
  let told := do
    let after ← reading.traffic?
    let lines ← server.overviewLine? before after
    return { server with overviews := server.overviews ++ lines }.setAlarm overviewPeriod
      (.overview after)
  told.getD server

def sweepNow (server : Server) : Server :=
  (server.actRegistry fun registry =>
    registry.sweep server.wall Registry.dormantAfter Registry.deleteAfter).2

def perform (server : Server) : Duty → Server
  | .publish serial =>
    match server.live? serial with
    | some live => server.putLive serial (live.fire server.now)
    | none => server
  | .linger serial => (server.actRegistry (·.release serial)).2
  | .sweep => server.sweepNow.setAlarm Registry.sweepPeriod .sweep
  | .overview before => server.tellOverview before

/-- Lets time pass up to an instant, in which at most `fuel` alarms go off. -/
def advanceFor (goal : Instant) : Nat → Server → Server
  | 0, server => { server with now := goal }
  | fuel + 1, server =>
    match earliest? server.alarms with
    | some (alarm, others) =>
      if alarm.due ≤ goal then
        advanceFor goal fuel
          (({ server with alarms := others, now := alarm.due }.perform alarm.duty).settle)
      else { server with now := goal }
    | none => { server with now := goal }

/-- Lets some nanoseconds pass.  An alarm sets at most one other, which goes off
later. -/
def advance (server : Server) (nanos : Nat) : Server :=
  let settled := server.settle
  settled.advanceFor (settled.now + nanos) ((settled.alarms.length + 1) * (nanos + 1))

/-! ## Starting and stopping -/

/-- Starts to sweep, at once and once per period, unless that was stopped. -/
def startSweeps (server : Server) : Server :=
  if server.isStopped then server else server.sweepNow.setAlarm Registry.sweepPeriod .sweep

/-- Starts to tell overviews, the first one after a period, unless that was
stopped.  Overviews that were started before go on beside them. -/
def startOverviews (server : Server) : Server :=
  let (reading, server) := server.read
  match reading.traffic? with
  | some traffic =>
    if server.isStopped then server else server.setAlarm overviewPeriod (.overview traffic)
  | none => server

/-- Stops sweeps and overviews for good. -/
def stop (server : Server) : Server :=
  { server with
    isStopped := true
    alarms := server.alarms.filter fun alarm =>
      match alarm.duty with
      | .sweep | .overview _ => false
      | .publish _ | .linger _ => true }

end Server

end LinkMeter
