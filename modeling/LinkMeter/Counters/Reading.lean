import LinkMeter.Counters.Tables
import LinkMeter.Json.Schema
import LinkMeter.Number.Count

/-!
# Readings of the counters

The counters of the network stack are read now and then.  A reading is summed up
over all interfaces, and what went on between two readings is the growth of each
sum.  A sum or a number of bits that does not fit 64 bits has no value.
-/

namespace LinkMeter.Counters

/-- The counters of an interface as a record. -/
def Interface.toJson (interface : Interface) : Json :=
  .object [("interface", .string interface.name),
    ("rx_bytes", .ofUInt64 interface.receivedBytes),
    ("rx_packets", .ofUInt64 interface.receivedPackets),
    ("tx_bytes", .ofUInt64 interface.sentBytes),
    ("tx_packets", .ofUInt64 interface.sentPackets)]

/-- The counters of the network stack at one time. -/
structure Reading where
  interfaces : List Interface := []
  retransmits : UInt64 := 0
  deriving DecidableEq, Inhabited

/-- What all interfaces together have received and sent so far. -/
structure Traffic where
  receivedBytes : UInt64 := 0
  sentBytes : UInt64 := 0
  retransmits : UInt64 := 0
  deriving DecidableEq, Inhabited

def Reading.traffic? (reading : Reading) : Option Traffic := do
  let receivedBytes ← Count.total? (reading.interfaces.map (·.receivedBytes))
  let sentBytes ← Count.total? (reading.interfaces.map (·.sentBytes))
  return { receivedBytes, sentBytes, retransmits := reading.retransmits }

/-- By how much a counter grew; a counter that started again did not grow. -/
def growth (before after : UInt64) : UInt64 := if before ≤ after then after - before else 0

/-- By how many bits a counter of bytes grew. -/
def bitGrowth? (before after : UInt64) : Option UInt64 :=
  Count.ofNat? ((growth before after).toNat * 8)

end LinkMeter.Counters
