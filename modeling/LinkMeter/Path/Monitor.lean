import LinkMeter.Path.Discovery

/-!
# Monitoring a path

Once a path is discovered every hop is probed over and over.  The first answer
to a hop's probes gives the hop its address; from then on answers from any other
address count as lost.  What comes of a probe changes its own hop alone, so the
hops can be probed independently: any list of results, each with the place of
its hop, is a possible course of events (`watch`).  `rounds` plays one such
course from a script, in which all hops are probed once per round.

A round trip that takes the total of its hop out of range ends the probing of
that hop, and of no other.
-/

namespace LinkMeter

open Icmp (Finding ProbeId)

namespace Hop

/-- Whether a probe breaks the probing of its hop: its round trip takes the total
of the hop out of range. -/
def isBrokenBy (hop : Hop) : Finding → Bool
  | .lost => false
  | .answered _ roundTrip peer =>
    hop.address.getD peer = peer && (hop.recordReply? roundTrip).isNone

/-- The hop after one more probe. -/
def absorb (names : Path.Names) (finding : Finding) (hop : Hop) : Hop :=
  match finding with
  | .lost => hop.recordLoss
  | .answered _ roundTrip peer =>
    match hop.address with
    | none => Path.withName names ({ hop with address := some peer }.recordReply roundTrip)
    | some address => if address = peer then hop.recordReply roundTrip else hop.recordLoss

end Hop

namespace Path

/-- The hops after one more probe of one of them. -/
def absorbAt (names : Names) (place : Nat) (finding : Finding) (hops : List Hop) : List Hop :=
  hops.modify place (Hop.absorb names finding)

/-- The hops after some results, in the order in which they come in, up to the
first fatal failure. -/
def watch (names : Names) : List (Nat × Attempt) → List Hop → List Hop × Option Failure
  | [], hops => (hops, none)
  | (place, attempt) :: rest, hops =>
    match settle attempt with
    | .error failure => (hops, some failure)
    | .ok finding => watch names rest (absorbAt names place finding hops)

/-- Probes the hops at some places once; a probe that never comes back has no
result. -/
def probeAll (attempt : UInt8) : List Nat → Script → List (Nat × Attempt) × Script
  | [], script => ([], script)
  | place :: rest, script =>
    let (answer, script) := script.await? ⟨UInt8.ofNat place, attempt⟩
    let (answers, script) := probeAll attempt rest script
    match answer with
    | some answer => ((place, answer) :: answers, script)
    | none => (answers, script)

/-- The places among some results that are probed again. -/
def unbroken (hops : List Hop) (results : List (Nat × Attempt)) : List Nat :=
  (results.filter fun (place, attempt) =>
    match settle attempt with
    | .ok finding => !(hops[place]?.any (·.isBrokenBy finding))
    | .error _ => false).map (·.1)

/-- Plays up to `fuel` rounds at some places, until no probe comes back or one
fails fatally.  A place is not probed again when its probe does not come back or
breaks the probing of its hop. -/
def roundsFor (names : Names) : Nat → UInt8 → List Nat → List Hop → Script →
    List Hop × Option Failure × Script
  | 0, _, _, hops, script => (hops, none, script)
  | fuel + 1, attempt, places, hops, script =>
    match probeAll attempt places script with
    | ([], script) => (hops, none, script)
    | (results, script) =>
      match watch names results hops with
      | (watched, some failure) => (watched, some failure, script)
      | (watched, none) =>
        roundsFor names fuel (attempt + 1) (unbroken hops results) watched script

/-- Plays the rounds that a script holds for the hops of a path.  The discovery
made the attempts with number zero.  Every round uses up an answer, or has a
first probe of its hop. -/
def rounds (names : Names) (hops : List Hop) (script : Script) :
    List Hop × Option Failure × Script :=
  roundsFor names (script.size + hops.length + 1) 1 (List.range hops.length) hops script

/-- The time between two snapshots of a monitored path. -/
def snapshotPeriod : Nat := 1_000_000_000

/-- The pause between two probes of a hop, if none is asked for. -/
def defaultGap : Span := Span.ofSeconds 1

end Path

end LinkMeter
