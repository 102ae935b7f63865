import LinkMeter.Address.Text

/-!
# What addresses are for

Some addresses do not stand for one host of the whole network: those of no host,
those of many hosts at once, and those that are valid on one link only.  A
link-local address means nothing without a zone, the link that it is valid on;
the same holds for a group of hosts whose scope is a host or a link.
-/

namespace LinkMeter

namespace Ipv4

/-- Whether the address lies in the network zero, whose first address stands for
every address of a host. -/
def isThisNetwork (address : Ipv4) : Bool := address.first == 0

/-- Whether the address stands for a group of hosts. -/
def isMulticast (address : Ipv4) : Bool := 224 ≤ address.first && address.first < 240

/-- Whether the address stands for all hosts on a link. -/
def isBroadcast (address : Ipv4) : Bool := address.octets.all (· == 255)

/-- Whether the address stands for no single host. -/
def isCollective (address : Ipv4) : Bool :=
  address.isThisNetwork || address.isMulticast || address.isBroadcast

end Ipv4

namespace Ipv6

/-- The most significant group, in which the purpose of an address is
written. -/
def leadGroup (address : Ipv6) : UInt16 := address.groups.headD 0

/-- Whether the address stands for every address of a host. -/
def isUnspecified (address : Ipv6) : Bool := address.groups.all (· == 0)

/-- Whether the address stands for a group of hosts. -/
def isMulticast (address : Ipv6) : Bool := 0xFF00 ≤ address.leadGroup

/-- Whether the address stands for one host on a link. -/
def isLinkLocal (address : Ipv6) : Bool :=
  0xFE80 ≤ address.leadGroup && address.leadGroup < 0xFEC0

/-- Whether the address stands for a group of hosts in a scope no wider than a
link. -/
def isNarrowMulticast (address : Ipv6) : Bool :=
  address.isMulticast && (address.leadGroup % 16 == 1 || address.leadGroup % 16 == 2)

/-- Whether the address means nothing without a zone. -/
def needsZone (address : Ipv6) : Bool := address.isLinkLocal || address.isNarrowMulticast

end Ipv6

end LinkMeter
