import LinkMeter.Bytes

/-!
# Echo requests

An echo request is an eight-byte header — type, code, checksum, identifier and
sequence number — followed by the body.  Numbers of 16 bits are written with
the high byte first.  In the IPv4 family the checksum is the complement of the
ones'-complement sum of all 16-bit words but the checksum itself, where an odd
last byte is the high byte of a word; in the IPv6 family the sender leaves it
zero.

The sequence number of a probe holds the number of its hop in the high byte and
the number of the attempt in the low byte (`ProbeId`).
-/

namespace LinkMeter

namespace Icmp

/-! ## Probe numbers -/

/-- The hop that a probe is for, and its attempt. -/
structure ProbeId where
  hop : UInt8
  attempt : UInt8
  deriving DecidableEq, Inhabited, Repr

namespace ProbeId

/-- The sequence number that stands for a probe. -/
def sequence (probe : ProbeId) : UInt16 := probe.hop.toUInt16 * 256 + probe.attempt.toUInt16

/-- The probe that a sequence number stands for. -/
def ofSequence (sequence : UInt16) : ProbeId :=
  ⟨(sequence / 256).toUInt8, (sequence % 256).toUInt8⟩

end ProbeId

/-! ## Words and checksums -/

/-- The two bytes of a 16-bit number, the high byte first. -/
def wordBytes (word : UInt16) : Bytes := [(word / 256).toUInt8, (word % 256).toUInt8]

/-- The 16-bit number of two bytes, the high byte first. -/
def wordOf (high low : UInt8) : UInt16 := high.toUInt16 * 256 + low.toUInt16

/-- The 16-bit words of a string of bytes as numbers; an odd last byte is the
high byte of a word. -/
def words : Bytes → List Nat
  | [] => []
  | [high] => [high.toNat * 256]
  | high :: low :: rest => (high.toNat * 256 + low.toNat) :: words rest

/-- A sum with its carries added back in until it fits 16 bits. -/
def fold (sum : Nat) : Nat :=
  if sum < 0x1_0000 then sum else fold (sum / 0x1_0000 + sum % 0x1_0000)
termination_by sum
decreasing_by omega

/-- The checksum of a packet whose second word is the checksum's own place. -/
def checksum (packet : Bytes) : UInt16 :=
  UInt16.ofNat (0x1_0000 - 1 - fold (((words packet).eraseIdx 1).foldr (· + ·) 0))

/-! ## Building a request -/

/-- The number of the type of an echo request. -/
def requestType (isV6 : Bool) : UInt8 := if isV6 then 128 else 8

/-- An echo request with a given checksum. -/
def withChecksum (sum : UInt16) (isV6 : Bool) (identifier sequence : UInt16) (body : Bytes) :
    Bytes :=
  requestType isV6 :: 0 ::
    (wordBytes sum ++ wordBytes identifier ++ wordBytes sequence ++ body)

/-- The echo request that probes are sent as. -/
def echoRequest (isV6 : Bool) (identifier sequence : UInt16) (body : Bytes) : Bytes :=
  let blank := withChecksum 0 isV6 identifier sequence body
  if isV6 then blank else withChecksum (checksum blank) isV6 identifier sequence body

end Icmp

end LinkMeter
