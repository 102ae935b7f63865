import LinkMeter.Failure
import LinkMeter.Icmp.Packet
import LinkMeter.Icmp.Probe

/-!
# Scripted probes

What probes come to can be laid down in advance, hop by hop in the order in
which they are sent.  A script notes the probes that were sent.

A probe past the end of its hop's list never comes back, unless it is the first
one of its hop, or the script is read as one in which such probes are lost.
-/

namespace LinkMeter.Path

open Icmp (Finding ProbeId)

abbrev Attempt := Except Failure Finding

/-- A way to send a probe, which may depend on the probes sent before and
changes with each. -/
abbrev Prober (State : Type) := ProbeId → State → Attempt × State

/-- What probes come to, and the probes that were sent. -/
structure Script where
  answers : List (UInt8 × List Attempt) := []
  calls : List ProbeId := []
  deriving Inhabited

namespace Script

/-- The number of answers that are left. -/
def size (script : Script) : Nat :=
  (script.answers.map fun (_, list) => list.length).foldr (· + ·) 0

/-- Notes that a probe was sent. -/
def note (script : Script) (probe : ProbeId) : Script :=
  { script with calls := script.calls ++ [probe] }

/-- Whether a probe of a hop was sent. -/
def hasProbed (script : Script) (hop : UInt8) : Bool := script.calls.any (·.hop == hop)

/-- The next answer for a hop, which is used up. -/
def next? (script : Script) (hop : UInt8) : Option (Attempt × Script) :=
  match script.answers.lookup hop with
  | some (attempt :: _) =>
    some (attempt, { script with answers := script.answers.map fun (number, list) =>
      if number = hop then (number, list.drop 1) else (number, list) })
  | _ => none

/-- Sends a probe; past the end of the list it is lost. -/
def send : Prober Script := fun probe script =>
  match script.next? probe.hop with
  | some (attempt, rest) => (attempt, rest.note probe)
  | none => (.ok .lost, script.note probe)

/-- Sends a probe that may never come back. -/
def await? (script : Script) (probe : ProbeId) : Option Attempt × Script :=
  match script.next? probe.hop with
  | some (attempt, rest) => (some attempt, rest.note probe)
  | none =>
    if script.hasProbed probe.hop then (none, script) else (some (.ok .lost), script.note probe)

end Script

end LinkMeter.Path
