import LinkMeter.Number.Decimal
import LinkMeter.Text.Blank
import LinkMeter.Text.Lines

/-!
# Counters of the network stack

Two text tables are read.  The table of interfaces has two header lines and
then one line per interface: its name, a colon, and its counters in columns, of
which the first two count what was received and the ninth and tenth what was
sent.  The loopback interface and lines without ten counters are passed over.

The table of protocol counters has pairs of lines per protocol, one with the
names of the columns and one with the values; the first pair for TCP tells the
number of retransmitted segments.

A counter that is not a number below `2 ^ 64` reads as zero.
-/

namespace LinkMeter.Counters

structure Interface where
  name : String
  receivedBytes : UInt64
  receivedPackets : UInt64
  sentBytes : UInt64
  sentPackets : UInt64
  deriving DecidableEq, Inhabited

def counter (text : List Char) : UInt64 :=
  UInt64.ofNat ((Decimal.readBelow? UInt64.size text).getD 0)

/-- The interface that a line of the table describes. -/
def readInterface? (line : List Char) : Option Interface := do
  let (name, counters) ← Text.splitAtFirst ':' line
  let name := Text.trim name
  if name = "lo".toList then none
  else
    match (Text.words counters).map counter with
    | rxBytes :: rxPackets :: _ :: _ :: _ :: _ :: _ :: _ :: txBytes :: txPackets :: _ =>
      some ⟨String.ofList name, rxBytes, rxPackets, txBytes, txPackets⟩
    | _ => none

/-- The interfaces of the table, in order. -/
def interfaces (table : List Char) : List Interface :=
  ((Text.lines table).drop 2).filterMap readInterface?

/-- The retransmitted TCP segments in the table of protocol counters. -/
def retransmits (table : List Char) : UInt64 :=
  match (Text.lines table).filter ("Tcp:".toList.isPrefixOf ·) with
  | names :: values :: _ =>
    match ((Text.words names).zip (Text.words values)).find? (·.1 == "RetransSegs".toList) with
    | some (_, value) => counter value
    | none => 0
  | _ => 0

end LinkMeter.Counters
