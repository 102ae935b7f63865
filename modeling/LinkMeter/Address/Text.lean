import LinkMeter.Address.Basic
import LinkMeter.Number.Decimal
import LinkMeter.Number.Hexadecimal

/-!
# Addresses as text

IPv4 addresses are written as four decimal octets.  IPv6 addresses are written
in the recommended form: lower-case hexadecimal groups without leading zeros,
the longest run of at least two zero groups (the first of equally long ones)
shortened to `::`, and a mapped IPv4 address in mixed notation.

Reading accepts more: leading zeros up to four digits in a group, upper case,
any placement of one `::` that stands for at least one group, and an IPv4
address in place of the last two groups.  Octets are read without leading
zeros.
-/

namespace LinkMeter

/-! ## Writing -/

namespace Ipv4

/-- The dotted decimal form. -/
def render (address : Ipv4) : List Char :=
  Decimal.render address.first.toNat ++ '.' :: Decimal.render address.second.toNat ++
    '.' :: Decimal.render address.third.toNat ++ '.' :: Decimal.render address.fourth.toNat

def toText (address : Ipv4) : String := String.ofList address.render

end Ipv4

namespace Ipv6

/-- Groups in hexadecimal, separated by colons. -/
def renderGroups : List UInt16 → List Char
  | [] => []
  | [group] => hexNumeral group.toNat
  | group :: next :: rest => hexNumeral group.toNat ++ ':' :: renderGroups (next :: rest)

/-- The number of leading zero groups. -/
def zeroRun (groups : List UInt16) : Nat := (groups.takeWhile (· == 0)).length

/-- The first of the longest runs of zero groups, as its start and its length.
`start` is the position of the first of the remaining groups. -/
def longestZeroRun (start : Nat) : List UInt16 → Nat × Nat
  | [] => (start, 0)
  | group :: rest =>
    let here := zeroRun (group :: rest)
    let later := longestZeroRun (start + 1) rest
    if later.2 ≤ here then (start, here) else later

/-- The IPv4 address that the groups map, if they do. -/
def mapped? (address : Ipv6) : Option Ipv4 :=
  match address.groups with
  | [0, 0, 0, 0, 0, 0xFFFF, high, low] =>
    some ⟨(high >>> 8).toUInt8, high.toUInt8, (low >>> 8).toUInt8, low.toUInt8⟩
  | _ => none

def render (address : Ipv6) : List Char :=
  match address.mapped? with
  | some inner => [':', ':', 'f', 'f', 'f', 'f', ':'] ++ inner.render
  | none =>
    let run := longestZeroRun 0 address.groups
    if run.2 < 2 then renderGroups address.groups
    else renderGroups (address.groups.take run.1) ++ ':' :: ':' ::
      renderGroups (address.groups.drop (run.1 + run.2))

end Ipv6

namespace Address

def render : Address → List Char
  | v4 address => address.render
  | v6 address => address.render

def text (address : Address) : String := String.ofList address.render

end Address

namespace Endpoint

/-- Address and port joined by a colon, whatever the family. -/
def plainText (endpoint : Endpoint) : String :=
  endpoint.address.text ++ ":" ++ Decimal.text endpoint.port.toNat

/-- The zone behind a percent sign, if there is one. -/
def zoneText (endpoint : Endpoint) : String :=
  if endpoint.zone = 0 then "" else "%" ++ Decimal.text endpoint.zone.toNat

/-- Address and port joined by a colon, an IPv6 address with its zone in
brackets. -/
def text (endpoint : Endpoint) : String :=
  match endpoint.address with
  | .v4 _ => endpoint.plainText
  | .v6 _ =>
    "[" ++ endpoint.address.text ++ endpoint.zoneText ++ "]:" ++
      Decimal.text endpoint.port.toNat

end Endpoint

/-! ## Reading -/

/-- The value of a run of digits in a base. -/
def digitsValue (base : Nat) (digits : List Nat) : Nat :=
  digits.foldl (fun value digit => value * base + digit) 0

/-- The longest run of digits at the head of a text, and what follows it. -/
def spanDigits (digit? : Char → Option Nat) : List Char → List Nat × List Char
  | [] => ([], [])
  | c :: rest =>
    match digit? c with
    | some digit =>
      let (digits, after) := spanDigits digit? rest
      (digit :: digits, after)
    | none => ([], c :: rest)

namespace Ipv4

/-- One octet: up to three digits below 256, with no leading zero. -/
def readOctet? (text : List Char) : Option (UInt8 × List Char) :=
  let (digits, rest) := spanDigits Decimal.digitValue? text
  let value := digitsValue 10 digits
  if digits.isEmpty || digits.length > 3 || value ≥ 256 then none
  else if digits.head? = some 0 && digits.length > 1 then none
  else some (UInt8.ofNat value, rest)

def readDotOctet? : List Char → Option (UInt8 × List Char)
  | '.' :: rest => readOctet? rest
  | _ => none

/-- A dotted decimal address at the head of a text. -/
def readHead? (text : List Char) : Option (Ipv4 × List Char) := do
  let (first, text) ← readOctet? text
  let (second, text) ← readDotOctet? text
  let (third, text) ← readDotOctet? text
  let (fourth, text) ← readDotOctet? text
  return (⟨first, second, third, fourth⟩, text)

/-- The two 16-bit groups that hold the address at the end of an IPv6 one. -/
def groups (address : Ipv4) : List UInt16 :=
  [address.first.toUInt16 * 256 + address.second.toUInt16,
    address.third.toUInt16 * 256 + address.fourth.toUInt16]

end Ipv4

namespace Ipv6

/-- One group: one to four hexadecimal digits. -/
def readGroup? (text : List Char) : Option (UInt16 × List Char) :=
  let (digits, rest) := spanDigits hexValue? text
  if digits.isEmpty || digits.length > 4 then none
  else some (UInt16.ofNat (digitsValue 16 digits), rest)

/-- What stands behind the colon that separates groups; the first group of a
part has none. -/
def afterSeparator? (isFirst : Bool) (text : List Char) : Option (List Char) :=
  if isFirst then some text
  else match text with
    | ':' :: rest => some rest
    | _ => none

/-- Up to `limit` groups at the head of a text, whether they ended in an IPv4
address, and the rest.  An IPv4 address takes the place of two groups, so it is
looked for while two are left. -/
def readGroups (isFirst : Bool) : Nat → List Char → List UInt16 × Bool × List Char
  | 0, text => ([], false, text)
  | limit + 1, text =>
    let embedded : Option (Ipv4 × List Char) :=
      if limit = 0 then none else (afterSeparator? isFirst text).bind Ipv4.readHead?
    match embedded with
    | some (address, rest) => (address.groups, true, rest)
    | none =>
      match (afterSeparator? isFirst text).bind readGroup? with
      | some (group, rest) =>
        let (groups, endsInV4, rest) := readGroups false limit rest
        (group :: groups, endsInV4, rest)
      | none => ([], false, text)

/-- An address at the head of a text: eight groups, or fewer around one `::`
that stands for the missing ones. -/
def readHead? (text : List Char) : Option (Ipv6 × List Char) :=
  let (front, endsInV4, rest) := readGroups true 8 text
  if h : front.length = 8 then some (⟨front, h⟩, rest)
  else if endsInV4 then none
  else match rest with
    | ':' :: ':' :: rest =>
      let (back, _, rest) := readGroups true (7 - front.length) rest
      let groups := front ++ List.replicate (8 - front.length - back.length) 0 ++ back
      if h : groups.length = 8 then some (⟨groups, h⟩, rest) else none
    | _ => none

end Ipv6

namespace Address

/-- The address that a whole text denotes. -/
def read? (text : List Char) : Option Address :=
  let found := match Ipv4.readHead? text with
    | some (address, rest) => some (v4 address, rest)
    | none => (Ipv6.readHead? text).map fun (address, rest) => (v6 address, rest)
  match found with
  | some (address, []) => some address
  | _ => none

def ofText? (text : String) : Option Address := read? text.toList

end Address

namespace Endpoint

/-- A port at the end of a text, behind a colon. -/
def readPort? : List Char → Option UInt16
  | ':' :: digits => ((Decimal.read? digits).filter (· < UInt16.size)).map UInt16.ofNat
  | _ => none

/-- A zone behind a percent sign, if there is one, and the rest. -/
def readZone? : List Char → Option (UInt32 × List Char)
  | '%' :: text =>
    let (digits, rest) := spanDigits Decimal.digitValue? text
    let zone := digitsValue 10 digits
    if digits.isEmpty || zone ≥ UInt32.size then none else some (UInt32.ofNat zone, rest)
  | text => some (0, text)

/-- The endpoint that a whole text denotes: `address:port`, with an IPv6 address
in brackets and its zone behind it. -/
def read? (text : List Char) : Option Endpoint :=
  match text with
  | '[' :: inner => do
    let (address, rest) ← Ipv6.readHead? inner
    let (zone, rest) ← readZone? rest
    match rest with
    | ']' :: rest => (readPort? rest).map fun port => ⟨.v6 address, port, zone⟩
    | _ => none
  | _ => do
    let (address, rest) ← Ipv4.readHead? text
    (readPort? rest).map fun port => ⟨.v4 address, port, 0⟩

def ofText? (text : String) : Option Endpoint := read? text.toList

end Endpoint

end LinkMeter
