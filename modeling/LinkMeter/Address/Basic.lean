/-!
# Network addresses

An IPv4 address is four octets, an IPv6 address eight groups of 16 bits.  The
two families stay apart: an IPv6 address that maps an IPv4 one is still of the
IPv6 family.
-/

namespace LinkMeter

@[ext]
structure Ipv4 where
  first : UInt8
  second : UInt8
  third : UInt8
  fourth : UInt8
  deriving DecidableEq, Inhabited, Repr

/-- An IPv6 address: eight 16-bit groups, the most significant first. -/
@[ext]
structure Ipv6 where
  /-- The groups in the order in which they are written. -/
  groups : List UInt16
  /-- There are eight of them. -/
  length_eq : groups.length = 8
  deriving DecidableEq, Repr

inductive Address where
  | v4 (address : Ipv4)
  | v6 (address : Ipv6)
  deriving DecidableEq, Repr

instance : Inhabited Address := ⟨.v4 default⟩

namespace Ipv4

/-- The four octets in order. -/
def octets (address : Ipv4) : List UInt8 :=
  [address.first, address.second, address.third, address.fourth]

end Ipv4

namespace Address

/-- Whether the address is of the IPv6 family. -/
def isV6 : Address → Bool
  | v4 _ => false
  | v6 _ => true

def loopback : Address := v4 ⟨127, 0, 0, 1⟩

end Address

structure Endpoint where
  address : Address
  port : UInt16
  /-- The zone in which a link-local IPv6 address is valid; zero for none. -/
  zone : UInt32 := 0
  deriving DecidableEq, Inhabited, Repr

end LinkMeter
