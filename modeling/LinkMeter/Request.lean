import LinkMeter.Json.Plain

/-!
# Requests

The parameters that a client sends to a server when it asks for a measurement.
-/

namespace LinkMeter

/-- What a client asks for. -/
structure Request where
  threads : UInt32 := 1
  /-- Bytes in one message. -/
  bufferSize : UInt32 := 16384
  /-- Round trips in one batch of samples. -/
  roundTrips : UInt32 := 1000
  /-- Whether the server sends and the client receives. -/
  reverse : Bool := false
  duration : Span := Span.ofSeconds 10
  gap : Span := Span.zero
  /-- Round trips left out before sampling starts. -/
  warmup : UInt32 := 1
  /-- The sending rate in bits per second; zero means no limit. -/
  rate : UInt64 := 0
  serviceType : UInt8 := 0
  deriving DecidableEq, Inhabited

namespace Request

def toJson (request : Request) : Json :=
  .object [
    ("num_threads", .ofUInt32 request.threads),
    ("buffer_size", .ofUInt32 request.bufferSize),
    ("rtt_count", .ofUInt32 request.roundTrips),
    ("reverse", .bool request.reverse),
    ("duration", request.duration.toJson),
    ("gap", request.gap.toJson),
    ("warmup_count", .ofUInt32 request.warmup),
    ("bw_rate", .ofUInt64 request.rate),
    ("tos", .ofUInt8 request.serviceType)]

end Request

end LinkMeter
