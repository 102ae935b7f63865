import LinkMeter.Console.Quantity
import LinkMeter.Number.Count
import LinkMeter.Registry.Basic
import LinkMeter.Text.Blank

/-!
# The overview of a registry

One line about everything that is going on: how many sessions and trials there
are, and the rates last published by the trials that are not dormant, added up.
Rates that add up to more than 64 bits hold leave no overview.
-/

namespace LinkMeter

namespace Report

/-- The bits per second that a report tells. -/
def bitRate : Report → UInt64
  | .bandwidth _ bits => bits
  | .packets _ _ _ bits => bits
  | .server _ _ bits _ => bits
  | _ => 0

/-- The connections per second that a report tells. -/
def connectionRate : Report → UInt64
  | .connections _ rate => rate
  | _ => 0

/-- The packets per second that a report tells. -/
def packetRate : Report → UInt64
  | .packets _ _ rate _ => rate
  | .server _ _ _ rate => rate
  | _ => 0

end Report

/-- Counts and rates over all sessions. -/
structure Overview where
  sessions : Nat := 0
  trials : Nat := 0
  dormant : Nat := 0
  bitsPerSecond : UInt64 := 0
  connectionsPerSecond : UInt64 := 0
  packetsPerSecond : UInt64 := 0
  deriving DecidableEq, Inhabited

namespace Overview

/-- The overview of a registry, if the rates add up to counts that fit. -/
def ofRegistry? (registry : Registry) : Option Overview := do
  let trials := registry.registered.filterMap registry.trial?
  let dormant := trials.filter (·.isDormant)
  let awake := trials.filter (!·.isDormant)
  let reports := awake.filterMap fun trial => trial.latest.map (·.report)
  let bits ← Count.total? (reports.map (·.bitRate))
  let connections ← Count.total? (reports.map (·.connectionRate))
  let packets ← Count.total? (reports.map (·.packetRate))
  return { sessions := registry.sessions.length
           trials := trials.length
           dormant := dormant.length
           bitsPerSecond := bits
           connectionsPerSecond := connections
           packetsPerSecond := packets }

def toJson (overview : Overview) : Json :=
  .object [("sessions", .natural overview.sessions), ("tests", .natural overview.trials),
    ("dormant", .natural overview.dormant),
    ("bits_per_second", .ofUInt64 overview.bitsPerSecond),
    ("connections_per_second", .ofUInt64 overview.connectionsPerSecond),
    ("packets_per_second", .ofUInt64 overview.packetsPerSecond)]

/-- The overview with the traffic of the network interfaces, in bits, and the
number of retransmitted segments. -/
def line (overview : Overview) (receivedBits sentBits retransmits : UInt64) : String :=
  let rate (bits : UInt64) := String.ofList (Text.trim (Console.bitRate bits).toList)
  Decimal.text overview.sessions ++ " session(s), " ++ Decimal.text overview.trials ++
    " test(s) (" ++ Decimal.text overview.dormant ++ " dormant): " ++
    rate overview.bitsPerSecond ++ " " ++ Decimal.text overview.connectionsPerSecond.toNat ++
    " conn/s " ++ Decimal.text overview.packetsPerSecond.toNat ++ " pkt/s | if rx " ++
    rate receivedBits ++ " tx " ++ rate sentBits ++ " | retransmits " ++
    Decimal.text retransmits.toNat

end Overview

end LinkMeter
