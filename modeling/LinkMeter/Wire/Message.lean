import LinkMeter.Wire.Codec

/-!
# Messages and frames

A handshake consists of two messages: a request for a measurement, and its
acceptance.  A third message stands for whatever could not be read.  A message
travels in a frame: the length of its encoding in four bytes, the high byte
first, and the encoding.  No frame is longer than `Wire.maxMessageSize`.

Bytes behind a message inside its frame are passed over.
-/

namespace LinkMeter.Wire

def version : UInt32 := 1

/-- The most bytes that the encoding of a message may take. -/
def maxMessageSize : Nat := 16384

inductive Content where
  /-- Something that could not be read. -/
  | invalid
  /-- The wish to measure. -/
  | request (measurement : Measurement) (request : Request)
  /-- The agreement to measure. -/
  | accept
  deriving DecidableEq, Inhabited

namespace Content

def label : Content → String
  | invalid => "Invalid"
  | request _ _ => "Syn"
  | accept => "Ack"

end Content

/-- A message of either side of a handshake. -/
structure Message where
  version : UInt32 := Wire.version
  content : Content
  deriving DecidableEq, Inhabited

namespace Message

/-! ## Encoding -/

def encode (message : Message) : Bytes :=
  encodeUInt32 message.version ++
    match message.content with
    | .invalid => encodeCase 0
    | .request measurement request =>
      encodeCase 1 ++ encodeMeasurement measurement ++ encodeRequest request
    | .accept => encodeCase 2

def decodeContent : Decoder Content := fun bytes => do
  let (number, rest) ← decodeCase [0, 1, 2] bytes
  match number with
  | 0 => return (.invalid, rest)
  | 1 =>
    let (measurement, rest) ← decodeMeasurement rest
    let (request, rest) ← decodeRequest rest
    return (.request measurement request, rest)
  | _ => return (.accept, rest)

def decode : Decoder Message := fun bytes => do
  let (version, rest) ← decodeUInt32 bytes
  let (content, rest) ← decodeContent rest
  return (⟨version, content⟩, rest)

/-- The message at the head of the bytes of a frame. -/
def ofBytes (bytes : Bytes) : Except CodecFault Message :=
  match decode bytes with
  | .ok (message, _) => .ok message
  | .error fault => .error fault

def frame (message : Message) : Except Failure Bytes :=
  let body := message.encode
  if body.length > maxMessageSize then
    .error (.protocol ("Message of " ++ Decimal.text body.length ++ " bytes exceeds limit of " ++
      Decimal.text maxMessageSize))
  else .ok (Bytes.big 4 body.length ++ body)

/-! ## As JSON -/

def toJson (message : Message) : Json :=
  .object [
    ("version", .ofUInt32 message.version),
    ("body", match message.content with
      | .invalid => .string "Invalid"
      | .request measurement request =>
        .object [("Syn", .object [
          ("test_id", measurement.toJson), ("client_param", request.toJson)])]
      | .accept => .object [("Ack", .object [])])]

end Message

end LinkMeter.Wire
