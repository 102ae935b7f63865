import LinkMeter.Json.Plain
import LinkMeter.Outcome.Basic

/-!
# Outcomes as JSON

A report is a choice named after its kind.  Two members are left out when they
hold nothing: the reason of an outcome that has none, and the list of round
trips of a ping that has none.
-/

namespace LinkMeter

namespace LatencyStats

/-- The names of the members in the order in which they are written. -/
def memberNames : List String :=
  ["count", "avg", "min", "max", "p50", "p90", "p95", "p99", "p999", "p9999", "jitter"]

def toJson (stats : LatencyStats) : Json :=
  .object (memberNames.zip [
    .ofUInt64 stats.count, stats.mean.toJson, stats.least.toJson, stats.greatest.toJson,
    stats.p50.toJson, stats.p90.toJson, stats.p95.toJson, stats.p99.toJson, stats.p999.toJson,
    stats.p9999.toJson, stats.jitter.toJson])

def ofJson? (value : Json) : Option LatencyStats := do
  match ← Json.record? memberNames false value with
  | [count, mean, least, greatest, p50, p90, p95, p99, p999, p9999, jitter] =>
    return {
      count := ← Json.required? Json.asUInt64? count
      mean := ← Json.required? Span.ofJson? mean
      least := ← Json.required? Span.ofJson? least
      greatest := ← Json.required? Span.ofJson? greatest
      p50 := ← Json.required? Span.ofJson? p50
      p90 := ← Json.required? Span.ofJson? p90
      p95 := ← Json.required? Span.ofJson? p95
      p99 := ← Json.required? Span.ofJson? p99
      p999 := ← Json.required? Span.ofJson? p999
      p9999 := ← Json.required? Span.ofJson? p9999
      jitter := ← Json.required? Span.ofJson? jitter }
  | _ => none

end LatencyStats

namespace PingCount

/-- The counts as a record; an empty list of round trips is left out. -/
def toJson (count : PingCount) : Json :=
  .object (
    [("sent", .ofUInt64 count.sent), ("received", .ofUInt64 count.received),
      ("lost", .ofUInt64 count.lost)] ++
    (if count.roundTrips.isEmpty then []
      else [("rtts", .array (count.roundTrips.map Span.toJson))]) ++
    [("latency", .ofNullable LatencyStats.toJson count.latency)])

def ofJson? (value : Json) : Option PingCount := do
  match ← Json.record? ["sent", "received", "lost", "rtts", "latency"] false value with
  | [sent, received, lost, roundTrips, latency] =>
    return {
      sent := ← Json.required? Json.asUInt64? sent
      received := ← Json.required? Json.asUInt64? received
      lost := ← Json.required? Json.asUInt64? lost
      roundTrips := ← Json.withDefault? [] (Json.asList? Span.ofJson?) roundTrips
      latency := ← Json.optional? LatencyStats.ofJson? latency }
  | _ => none

end PingCount

namespace Hop

/-- The names of the members in the order in which they are written. -/
def memberNames : List String :=
  ["addr", "sent", "received", "lost", "last", "best", "worst", "total", "average", "name",
    "full_name"]

def toJson (hop : Hop) : Json :=
  .object (memberNames.zip [
    .ofNullable Address.toJson hop.address, .ofUInt32 hop.sent, .ofUInt32 hop.received,
    .ofUInt32 hop.lost, hop.last.toJson, hop.best.toJson, hop.worst.toJson, hop.total.toJson,
    hop.mean.toJson, .string hop.name, .string hop.fullName])

def ofJson? (value : Json) : Option Hop := do
  match ← Json.record? memberNames false value with
  | [address, sent, received, lost, last, best, worst, total, mean, name, fullName] =>
    return {
      address := ← Json.optional? Address.ofJson? address
      sent := ← Json.required? Json.asUInt32? sent
      received := ← Json.required? Json.asUInt32? received
      lost := ← Json.required? Json.asUInt32? lost
      last := ← Json.required? Span.ofJson? last
      best := ← Json.required? Span.ofJson? best
      worst := ← Json.required? Span.ofJson? worst
      total := ← Json.required? Span.ofJson? total
      mean := ← Json.required? Span.ofJson? mean
      name := ← Json.required? Json.asString? name
      fullName := ← Json.required? Json.asString? fullName }
  | _ => none

end Hop

namespace Report

/-- A record of 64-bit counters. -/
def counters (names : List String) (values : List UInt64) : Json :=
  .object (names.zip (values.map .ofUInt64))

/-- A record of 64-bit counters, read. -/
def counters? (names : List String) (value : Json) : Option (List UInt64) := do
  (← Json.record? names false value).mapM (Json.required? Json.asUInt64?)

/-- The counters of a bandwidth report. -/
def bandwidthNames : List String := ["bytes", "bits_per_second"]

/-- The counters of a report on connections. -/
def connectionNames : List String := ["connections", "connections_per_second"]

/-- The counters of a report on packets. -/
def packetNames : List String := ["packets", "bytes", "packets_per_second", "bits_per_second"]

/-- The counters of a server's report on datagrams. -/
def serverNames : List String := ["bytes", "packets", "bits_per_second", "packets_per_second"]

def toJson : Report → Json
  | bandwidth bytes rate => .object [("Bandwidth", counters bandwidthNames [bytes, rate])]
  | connections count rate => .object [("Cps", counters connectionNames [count, rate])]
  | packets count bytes packetRate bitRate =>
    .object [("Pps", counters packetNames [count, bytes, packetRate, bitRate])]
  | roundTrips samples => .object [("LatencyRaw", .array (samples.map Span.toJson))]
  | latency stats => .object [("Latency", stats.toJson)]
  | ping count => .object [("Ping", count.toJson)]
  | path hops => .object [("TraceRoute", .array (hops.map Hop.toJson))]
  | server bytes count bitRate packetRate =>
    .object [("ServerAggregate", counters serverNames [bytes, count, bitRate, packetRate])]
  | nothing => .string "None"

def ofJson? (value : Json) : Option Report := do
  match ← Json.choice? value with
  | ("Bandwidth", some content) =>
    match ← counters? bandwidthNames content with
    | [bytes, rate] => return bandwidth bytes rate
    | _ => none
  | ("Cps", some content) =>
    match ← counters? connectionNames content with
    | [count, rate] => return connections count rate
    | _ => none
  | ("Pps", some content) =>
    match ← counters? packetNames content with
    | [count, bytes, packetRate, bitRate] => return packets count bytes packetRate bitRate
    | _ => none
  | ("LatencyRaw", some content) => (Json.asList? Span.ofJson? content).map roundTrips
  | ("Latency", some content) => (LatencyStats.ofJson? content).map latency
  | ("Ping", some content) => (PingCount.ofJson? content).map ping
  | ("TraceRoute", some content) => (Json.asList? Hop.ofJson? content).map path
  | ("ServerAggregate", some content) =>
    match ← counters? serverNames content with
    | [bytes, count, bitRate, packetRate] => return server bytes count bitRate packetRate
    | _ => none
  | ("None", none) | ("None", some .null) => return nothing
  | _ => none

end Report

namespace Outcome

/-- An outcome as a record; a missing reason is left out. -/
def toJson (outcome : Outcome) : Json :=
  .object (
    [("success", .bool outcome.success)] ++
    (match outcome.error with
      | none => []
      | some reason => [("error", .string reason)]) ++
    [("body", outcome.report.toJson)])

def ofJson? (value : Json) : Option Outcome := do
  match ← Json.record? ["success", "error", "body"] false value with
  | [success, error, report] =>
    return {
      success := ← Json.required? Json.asBool? success
      error := ← Json.optional? Json.asString? error
      report := ← Json.required? Report.ofJson? report }
  | _ => none

end Outcome

end LinkMeter
