import LinkMeter.Wire.Message
import LinkMeter.Wire.Stream

/-!
# The handshake

The client sends a request and waits for its acceptance; the server waits for a
request and accepts it.  Reading a frame consumes the length and, unless that
is refused, as many bytes as it declares, whether or not they are a message.
Whatever goes wrong while a side waits for a message counts as having received
an invalid one.
-/

namespace LinkMeter.Wire

/-- The result of an operation that may end in any failure. -/
inductive Progress (α : Type) where
  | done (value : α)
  | failed (failure : Failure)
  /-- The operation never returns. -/
  | waiting
  deriving Inhabited

/-- Reads one frame and decodes its message. -/
def readMessage (source : Source) : Progress Message × Source :=
  match source.readExact 4 with
  | (.failed fault, rest) => (.failed (.io fault), rest)
  | (.waiting, rest) => (.waiting, rest)
  | (.done lengthBytes, rest) =>
    let length := Bytes.bigValue lengthBytes
    if length > maxMessageSize then
      (.failed (.protocol ("Declared message length " ++ Decimal.text length ++
        " exceeds limit of " ++ Decimal.text maxMessageSize)), rest)
    else
      match Source.readExact length rest with
      | (.failed fault, rest) => (.failed (.io fault), rest)
      | (.waiting, rest) => (.waiting, rest)
      | (.done body, rest) =>
        match Message.ofBytes body with
        | .ok message => (.done message, rest)
        | .error fault => (.failed (.codec fault), rest)

/-- Reads one message; what cannot be read is an invalid message. -/
def receiveMessage (source : Source) : Option Message × Source :=
  match readMessage source with
  | (.done message, rest) => (some message, rest)
  | (.failed _, rest) => (some { content := .invalid }, rest)
  | (.waiting, rest) => (none, rest)

def sendMessage (message : Message) (sink : Sink) : Progress Unit × Sink :=
  match message.frame with
  | .error failure => (.failed failure, sink)
  | .ok bytes =>
    match sink.writeAll bytes with
    | (.done _, sink) => (.done (), sink)
    | (.failed fault, sink) => (.failed (.io fault), sink)
    | (.waiting, sink) => (.waiting, sink)

/-- The client's side: sends a request and requires its acceptance. -/
def clientHandshake (measurement : Measurement) (request : Request) (source : Source)
    (sink : Sink) : Progress Unit × Source × Sink :=
  match sendMessage { content := .request measurement request } sink with
  | (.failed failure, sink) => (.failed failure, source, sink)
  | (.waiting, sink) => (.waiting, source, sink)
  | (.done _, sink) =>
    match receiveMessage source with
    | (none, rest) => (.waiting, rest, sink)
    | (some message, rest) =>
      match message.content with
      | .accept => (.done (), rest, sink)
      | other => (.failed (.handshake ("Expected ACK, received " ++ other.label)), rest, sink)

/-- The server's side: requires a request, of any version, and accepts it. -/
def serverHandshake (source : Source) (sink : Sink) :
    Progress (Measurement × Request) × Source × Sink :=
  match receiveMessage source with
  | (none, rest) => (.waiting, rest, sink)
  | (some message, rest) =>
    match message.content with
    | .request measurement request =>
      match sendMessage { content := .accept } sink with
      | (.done _, sink) => (.done (measurement, request), rest, sink)
      | (.failed failure, sink) => (.failed failure, rest, sink)
      | (.waiting, sink) => (.waiting, rest, sink)
    | other => (.failed (.handshake ("Expected SYN, received " ++ other.label)), rest, sink)

end LinkMeter.Wire
