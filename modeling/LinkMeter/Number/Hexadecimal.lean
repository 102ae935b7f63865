import LinkMeter.Bytes

/-!
# Hexadecimal numerals

Numbers and bytes in base sixteen.  Digits are written in lower case and read in
either case; a byte takes two digits, the high one first.
-/

namespace LinkMeter

/-- The hexadecimal digit of a value below sixteen. -/
def hexDigit (value : Nat) : Char :=
  if value < 10 then Char.ofNat (48 + value) else Char.ofNat (87 + value)

/-- The hexadecimal digits of a number without leading zeros. -/
def hexNumeral (n : Nat) : List Char :=
  if n < 16 then [hexDigit n] else hexNumeral (n / 16) ++ [hexDigit (n % 16)]
termination_by n

/-- The value of a hexadecimal digit of either case. -/
def hexValue? (c : Char) : Option Nat :=
  if 48 ≤ c.toNat ∧ c.toNat ≤ 57 then some (c.toNat - 48)
  else if 97 ≤ c.toNat ∧ c.toNat ≤ 102 then some (c.toNat - 87)
  else if 65 ≤ c.toNat ∧ c.toNat ≤ 70 then some (c.toNat - 55)
  else none

namespace Bytes

/-- The two digits of every byte. -/
def hex (bytes : Bytes) : String :=
  String.ofList (bytes.flatMap fun byte =>
    [hexDigit (byte.toNat / 16), hexDigit (byte.toNat % 16)])

/-- The bytes that pairs of digits stand for. -/
def ofHexDigits? : List Char → Option Bytes
  | [] => some []
  | high :: low :: rest => do
    let high ← hexValue? high
    let low ← hexValue? low
    let bytes ← ofHexDigits? rest
    return UInt8.ofNat (high * 16 + low) :: bytes
  | [_] => none

end Bytes

end LinkMeter
