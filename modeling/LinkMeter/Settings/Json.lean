import LinkMeter.Settings.Basic

/-!
# Settings as JSON

A record with one member per setting.  The optional settings may be missing;
all others are required.
-/

namespace LinkMeter

namespace Role

def toJson : Role → Json
  | server => .string "Server"
  | client => .string "Client"

def ofJson? (value : Json) : Option Role :=
  match Json.bareChoice? value with
  | some "Server" => some server
  | some "Client" => some client
  | _ => none

end Role

namespace Settings

/-- The names of the members in the order in which they are written. -/
def memberNames : List String :=
  ["mode", "protocol", "test_type", "port", "server_addr", "bind_addr", "duration", "num_threads",
    "buffer_size", "rtt_count", "reverse", "bandwidth", "warmup_count", "gap", "tos", "json",
    "interval", "max_hops", "probe_timeout", "no_dns"]

def toJson (settings : Settings) : Json :=
  .object (memberNames.zip [
    settings.role.toJson,
    settings.transport.toJson,
    settings.kind.toJson,
    .ofUInt16 settings.port,
    .ofNullable .string settings.serverAddress,
    .ofNullable Address.toJson settings.bindAddress,
    settings.duration.toJson,
    .ofUInt32 settings.threads,
    .ofNullable .ofUInt32 settings.bufferSize,
    .ofUInt32 settings.roundTrips,
    .bool settings.reverse,
    .ofNullable .ofUInt64 settings.bandwidth,
    .ofUInt32 settings.warmup,
    .ofNullable Span.toJson settings.gap,
    .ofUInt8 settings.serviceType,
    .bool settings.json,
    settings.interval.toJson,
    .ofUInt8 settings.maxHops,
    settings.probeTimeout.toJson,
    .bool settings.withoutNames])

def ofJson? (value : Json) : Option Settings := do
  match ← Json.record? memberNames false value with
  | [role, transport, kind, port, serverAddress, bindAddress, duration, threads, bufferSize,
      roundTrips, reverse, bandwidth, warmup, gap, serviceType, json, interval, maxHops,
      probeTimeout, withoutNames] =>
    return {
      role := ← Json.required? Role.ofJson? role
      transport := ← Json.required? Transport.ofJson? transport
      kind := ← Json.required? Kind.ofJson? kind
      port := ← Json.required? Json.asUInt16? port
      serverAddress := ← Json.optional? Json.asString? serverAddress
      bindAddress := ← Json.optional? Address.ofJson? bindAddress
      duration := ← Json.required? Span.ofJson? duration
      threads := ← Json.required? Json.asUInt32? threads
      bufferSize := ← Json.optional? Json.asUInt32? bufferSize
      roundTrips := ← Json.required? Json.asUInt32? roundTrips
      reverse := ← Json.required? Json.asBool? reverse
      bandwidth := ← Json.optional? Json.asUInt64? bandwidth
      warmup := ← Json.required? Json.asUInt32? warmup
      gap := ← Json.optional? Span.ofJson? gap
      serviceType := ← Json.required? Json.asUInt8? serviceType
      json := ← Json.required? Json.asBool? json
      interval := ← Json.required? Span.ofJson? interval
      maxHops := ← Json.required? Json.asUInt8? maxHops
      probeTimeout := ← Json.required? Span.ofJson? probeTimeout
      withoutNames := ← Json.required? Json.asBool? withoutNames }
  | _ => none

end Settings

end LinkMeter
