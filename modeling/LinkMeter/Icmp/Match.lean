import LinkMeter.Icmp.Packet

/-!
# Matching answers to probes

A datagram answers a probe in one of three ways: it is an echo reply with the
probe's identifier, sequence number and body, or it is an error message — time
exceeded or destination unreachable — that quotes the probe's request.  Every
other datagram is a stranger.

Datagrams of the IPv4 family arrive with their IP header, whose length is given
in units of four bytes by its first byte; quoted datagrams carry theirs too.
Datagrams of the IPv6 family arrive without it, and a quoted one has a header
of forty bytes.
-/

namespace LinkMeter.Icmp

inductive Answer where
  | reply
  | timeExceeded
  | unreachable
  deriving DecidableEq, Inhabited, Repr

def Answer.name : Answer → String
  | .reply => "EchoReply"
  | .timeExceeded => "TimeExceeded"
  | .unreachable => "Unreachable"

/-- The probe that is waiting for an answer. -/
structure Expected where
  identifier : UInt16
  sequence : UInt16
  body : Bytes
  deriving DecidableEq, Inhabited

structure Echo where
  type : UInt8
  identifier : UInt16
  sequence : UInt16
  body : Bytes
  deriving DecidableEq, Inhabited

/-- The echo message at the head of a string of at least eight bytes. -/
def Echo.ofBytes? : Bytes → Option Echo
  | type :: _ :: _ :: _ :: i :: j :: s :: t :: body => some ⟨type, wordOf i j, wordOf s t, body⟩
  | _ => none

/-- The bytes behind an IPv4 header of at least twenty bytes; there may be
fewer bytes than the header says it has. -/
def afterV4Header? (datagram : Bytes) : Option Bytes :=
  if datagram.length < 20 then none
  else
    let length := ((datagram.headD 0) % 16).toNat * 4
    if datagram.length < length then none else some (datagram.drop length)

/-- Whether an echo message is the probe's own request. -/
def isOwnRequest (isV6 : Bool) (expected : Expected) (message : Bytes) : Bool :=
  match Echo.ofBytes? message with
  | some echo =>
    echo.type == requestType isV6 && echo.identifier == expected.identifier &&
      echo.sequence == expected.sequence
  | none => false

/-- Whether an error message quotes the probe's request. -/
def quotesRequest (isV6 : Bool) (expected : Expected) (message : Bytes) : Bool :=
  if isV6 then isOwnRequest isV6 expected (message.drop 48)
  else
    match afterV4Header? (message.drop 8) with
    | some quoted => isOwnRequest isV6 expected quoted
    | none => false

/-- Whether a message is the reply to the probe. -/
def isReply (expected : Expected) (message : Bytes) : Bool :=
  match Echo.ofBytes? message with
  | some echo =>
    echo.identifier == expected.identifier && echo.sequence == expected.sequence &&
      expected.body.isPrefixOf echo.body
  | none => false

/-- The numbers of the three message types that can answer a probe. -/
def answerOfType? (isV6 : Bool) (type : UInt8) : Option Answer :=
  if isV6 then
    if type = 129 then some .reply
    else if type = 3 then some .timeExceeded
    else if type = 1 then some .unreachable
    else none
  else
    if type = 0 then some .reply
    else if type = 11 then some .timeExceeded
    else if type = 3 then some .unreachable
    else none

def classifyMessage (isV6 : Bool) (expected : Expected) (message : Bytes) : Option Answer :=
  (answerOfType? isV6 (message.headD 0)).filter fun answer =>
    match answer with
    | .reply => isReply expected message
    | .timeExceeded | .unreachable => quotesRequest isV6 expected message

/-- How a datagram answers a probe, if it does. -/
def classify (isV6 : Bool) (expected : Expected) (datagram : Bytes) : Option Answer :=
  if isV6 then classifyMessage isV6 expected datagram
  else (afterV4Header? datagram).bind fun message =>
    if message.length < 4 then none else classifyMessage isV6 expected message

end LinkMeter.Icmp
