import LinkMeter.Console.Quantity
import LinkMeter.Measurement
import LinkMeter.Outcome.Json

/-!
# Result lines

How a published report is shown: as aligned text with the peer in front of each
line, or as one JSON object per report.  A failure takes one line, and a report
without content takes none.
-/

namespace LinkMeter.Console

/-- The statistics of a batch of round trips. -/
def latencyText (stats : LatencyStats) : String :=
  "avg " ++ span stats.mean ++ " min " ++ span stats.least ++ " p50 " ++ span stats.p50 ++
    " p90 " ++ span stats.p90 ++ " p95 " ++ span stats.p95 ++ " p99 " ++ span stats.p99 ++
    " p99.9 " ++ span stats.p999 ++ " p99.99 " ++ span stats.p9999 ++ " max " ++
    span stats.greatest ++ " jitter " ++ span stats.jitter

/-- One hop of a path, numbered from one. -/
def hopText (position : Nat) (hop : Hop) : String :=
  match hop.address with
  | none => counter 2 position ++ ". ???"
  | some address =>
    let name :=
      if hop.fullName.isEmpty then address.text
      else hop.fullName ++ " (" ++ address.text ++ ")"
    counter 2 position ++ ". " ++ Text.padRight 40 name ++ " sent " ++
      counter 4 hop.sent.toNat ++ " lost " ++ Text.padLeft 5 (hop.lossPercent.fixed 1) ++
      "% last " ++ Text.padLeft 9 (span hop.last) ++ " avg " ++ Text.padLeft 9 (span hop.mean) ++
      " best " ++ Text.padLeft 9 (span hop.best) ++ " worst " ++ Text.padLeft 9 (span hop.worst)

/-- The lines of a report, without the peer. -/
def reportLines : Report → List String
  | .bandwidth bytes rate => [size bytes ++ "  " ++ bitRate rate]
  | .connections _ rate => [counter 8 rate.toNat ++ " connections/sec"]
  | .packets _ _ packetRate rate =>
    [counter 8 packetRate.toNat ++ " packets/sec  " ++ bitRate rate]
  | .roundTrips samples => [Decimal.text samples.length ++ " raw samples"]
  | .latency stats => [latencyText stats]
  | .ping count =>
    let counts := "sent " ++ Decimal.text count.sent.toNat ++ " received " ++
      Decimal.text count.received.toNat ++ " lost " ++ Decimal.text count.lost.toNat
    match count.latency with
    | some stats => [counts ++ "  " ++ latencyText stats]
    | none => [counts]
  | .path hops => hops.mapIdx fun index hop => hopText (index + 1) hop
  | .server _ _ rate packetRate =>
    [bitRate rate ++ "  " ++ counter 8 packetRate.toNat ++ " packets/sec"]
  | .nothing => []

/-- A published report as it is handed to a log. -/
structure Entry where
  measurement : Measurement
  success : Bool
  peer : Endpoint
  report : Report
  deriving DecidableEq, Inhabited

namespace Entry

def lines (entry : Entry) : List String :=
  let peer := "[" ++ Text.padLeft 21 entry.peer.plainText ++ "] "
  if entry.success then
    (reportLines entry.report).map fun line =>
      peer ++ Text.padRight 4 entry.measurement.transport.label ++ " " ++ line
  else
    [peer ++ entry.measurement.transport.label ++ " " ++ entry.measurement.kind.label ++
      " failed"]

/-- The lines of an entry as a reader of the console sees them: a line feed within
a host name begins a new one. -/
def seenLines (entry : Entry) : List String :=
  entry.lines.flatMap fun line => (Text.lines (line.toList ++ ['\n'])).map String.ofList

/-- An entry as a JSON object, all but the time of printing. -/
def toJson (entry : Entry) : Json :=
  .object [
    ("protocol", .string entry.measurement.transport.label),
    ("remote_ip", entry.peer.address.toJson),
    ("remote_port", .ofUInt16 entry.peer.port),
    ("result", entry.report.toJson),
    ("success", .bool entry.success),
    ("type", .string entry.measurement.kind.label)]

end Entry

end LinkMeter.Console
