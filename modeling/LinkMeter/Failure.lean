import LinkMeter.Address.Text

/-!
# Failures

What can go wrong, by cause, and the one line that reports it.  Two causes end
a whole measurement (`Failure.isFatal`); every other one concerns a single
worker or a single connection.
-/

namespace LinkMeter

/-- A failure of a byte stream or a socket. -/
inductive IoFault where
  /-- The stream ended inside a read of a fixed number of bytes. -/
  | endedEarly
  /-- A writer took no byte. -/
  | nothingWritten
  /-- Any other failure, in the words of the system. -/
  | other (text : String)
  deriving DecidableEq, Inhabited, Repr

namespace IoFault

/-- The system's words. -/
def message : IoFault → String
  | endedEarly => "early eof"
  | nothingWritten => "write zero"
  | other text => text

end IoFault

/-- Why bytes are not the encoding of a message. -/
inductive CodecFault where
  /-- The bytes end inside a value. -/
  | endOfBytes
  /-- A choice has a number that stands for none of its cases. -/
  | unknownCase (number cases : Nat)
  /-- A truth value is neither 0 nor 1. -/
  | notBoolean (byte : UInt8)
  /-- Seconds with carried nanoseconds leave 64 bits. -/
  | spanOverflow
  deriving DecidableEq, Inhabited, Repr

namespace CodecFault

/-- The reason in words. -/
def message : CodecFault → String
  | endOfBytes => "io error: unexpected end of file"
  | unknownCase number cases =>
    "invalid value: integer `" ++ Decimal.text number ++ "`, expected variant index 0 <= i < "
      ++ Decimal.text cases
  | notBoolean byte =>
    "invalid u8 while decoding bool, expected 0 or 1, found " ++ Decimal.text byte.toNat
  | spanOverflow => "overflow deserializing Duration"

end CodecFault

/-- Everything that can end an operation. -/
inductive Failure where
  | io (fault : IoFault)
  | codec (fault : CodecFault)
  | connection (text : String)
  | protocol (text : String)
  | handshake (text : String)
  | settings (text : String)
  | trial (text : String)
  /-- The system refused a raw socket. -/
  | permissionDenied (text : String)
  | unresponsive (destination : Address)
  | duplicateTrial (text : String)
  deriving DecidableEq, Inhabited, Repr

namespace Failure

/-- The line that reports a failure. -/
def message : Failure → String
  | io fault => "IO error: " ++ fault.message
  | codec fault => "Codec error: " ++ fault.message
  | connection text => "Connection error: " ++ text
  | protocol text => "Protocol error: " ++ text
  | handshake text => "Handshake failed: " ++ text
  | settings text => "Configuration error: " ++ text
  | trial text => "Test error: " ++ text
  | permissionDenied text => "Permission denied: " ++ text
  | unresponsive destination => "Destination " ++ destination.text ++ " not responding"
  | duplicateTrial text => "Test already exists: " ++ text

/-- Whether a failure ends the whole measurement instead of one worker. -/
def isFatal : Failure → Bool
  | permissionDenied _ | unresponsive _ => true
  | _ => false

/-- The name of the cause in reports to other programs. -/
def cause : Failure → String
  | io _ => "Io"
  | codec _ => "Codec"
  | connection _ => "Connection"
  | protocol _ => "Protocol"
  | handshake _ => "Handshake"
  | settings _ => "Config"
  | trial _ => "Test"
  | permissionDenied _ => "PermissionDenied"
  | unresponsive _ => "DestinationNotResponding"
  | duplicateTrial _ => "DuplicateTest"

/-- The failure with a cause and the text that goes with it, which is the
destination if that is unresponsive.  A codec failure has no text of its own. -/
def ofCause? (cause text : String) : Option Failure :=
  match cause with
  | "Io" => some (io (.other text))
  | "Connection" => some (connection text)
  | "Protocol" => some (protocol text)
  | "Handshake" => some (handshake text)
  | "Config" => some (settings text)
  | "Test" => some (trial text)
  | "PermissionDenied" => some (permissionDenied text)
  | "DestinationNotResponding" => (Address.ofText? text).map unresponsive
  | "DuplicateTest" => some (duplicateTrial text)
  | _ => none

end Failure

end LinkMeter
