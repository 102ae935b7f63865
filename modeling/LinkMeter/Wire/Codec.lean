import LinkMeter.Bytes
import LinkMeter.Failure
import LinkMeter.Measurement
import LinkMeter.Request

/-!
# Binary encoding

How values are laid out in a message: numbers in a fixed number of bytes with
the low byte first, a truth value as one byte that is zero or one, a choice as
the 32-bit number of its case, a span as its 64-bit seconds and 32-bit
nanoseconds, and a record as its fields one after the other.

A decoder takes its value from the head of a string of bytes and returns the
rest.  Decoding a span carries nanoseconds from one second up.
-/

namespace LinkMeter.Wire

/-- Takes a value from the head of a string of bytes. -/
abbrev Decoder (α : Type) := Bytes → Except CodecFault (α × Bytes)

/-! ## Numbers -/

def decodeNat (width : Nat) : Decoder Nat := fun bytes =>
  if bytes.length < width then .error .endOfBytes
  else .ok (Bytes.littleValue (bytes.take width), bytes.drop width)

def decodeUInt8 : Decoder UInt8 := fun bytes => do
  let (value, rest) ← decodeNat 1 bytes
  return (UInt8.ofNat value, rest)

def decodeUInt32 : Decoder UInt32 := fun bytes => do
  let (value, rest) ← decodeNat 4 bytes
  return (UInt32.ofNat value, rest)

def decodeUInt64 : Decoder UInt64 := fun bytes => do
  let (value, rest) ← decodeNat 8 bytes
  return (UInt64.ofNat value, rest)

def encodeUInt32 (value : UInt32) : Bytes := Bytes.little 4 value.toNat

def encodeUInt64 (value : UInt64) : Bytes := Bytes.little 8 value.toNat

/-! ## Truth values, spans and choices -/

def encodeBool (value : Bool) : Bytes := [if value then 1 else 0]

def decodeBool : Decoder Bool := fun bytes => do
  let (byte, rest) ← decodeUInt8 bytes
  if byte = 0 then return (false, rest)
  else if byte = 1 then return (true, rest)
  else throw (.notBoolean byte)

def encodeSpan (span : Span) : Bytes :=
  Bytes.little 8 span.seconds ++ Bytes.little 4 span.subNanos

def decodeSpan : Decoder Span := fun bytes => do
  let (seconds, rest) ← decodeUInt64 bytes
  let (nanos, rest) ← decodeUInt32 rest
  match Span.ofParts? seconds nanos with
  | some span => return (span, rest)
  | none => throw .spanOverflow

/-- The number of a choice among `cases`, in bytes. -/
def encodeCase (number : Nat) : Bytes := Bytes.little 4 number

/-- One of the values that are numbered from zero. -/
def decodeCase {α : Type} (values : List α) : Decoder α := fun bytes => do
  let (number, rest) ← decodeNat 4 bytes
  match values[number]? with
  | some value => return (value, rest)
  | none => throw (.unknownCase number values.length)

def encodeTransport (transport : Transport) : Bytes :=
  encodeCase (Transport.all.idxOf transport)

def encodeKind (kind : Kind) : Bytes := encodeCase (Kind.all.idxOf kind)

/-! ## Records -/

def encodeMeasurement (measurement : Measurement) : Bytes :=
  encodeTransport measurement.transport ++ encodeKind measurement.kind

def decodeMeasurement : Decoder Measurement := fun bytes => do
  let (transport, rest) ← decodeCase Transport.all bytes
  let (kind, rest) ← decodeCase Kind.all rest
  return (⟨transport, kind⟩, rest)

def encodeRequest (request : Request) : Bytes :=
  encodeUInt32 request.threads ++ encodeUInt32 request.bufferSize ++
    encodeUInt32 request.roundTrips ++ encodeBool request.reverse ++
    encodeSpan request.duration ++ encodeSpan request.gap ++ encodeUInt32 request.warmup ++
    encodeUInt64 request.rate ++ [request.serviceType]

def decodeRequest : Decoder Request := fun bytes => do
  let (threads, rest) ← decodeUInt32 bytes
  let (bufferSize, rest) ← decodeUInt32 rest
  let (roundTrips, rest) ← decodeUInt32 rest
  let (reverse, rest) ← decodeBool rest
  let (duration, rest) ← decodeSpan rest
  let (gap, rest) ← decodeSpan rest
  let (warmup, rest) ← decodeUInt32 rest
  let (rate, rest) ← decodeUInt64 rest
  let (serviceType, rest) ← decodeUInt8 rest
  return ({ threads, bufferSize, roundTrips, reverse, duration, gap, warmup, rate, serviceType },
    rest)

end LinkMeter.Wire
