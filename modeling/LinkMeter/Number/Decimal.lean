/-!
# Decimal numerals

Natural numbers as decimal text.  `Decimal.render` writes the digits without
leading zeros, `Decimal.value` is the number that digits stand for, and
`Decimal.read?` accepts a non-empty run of digits, leading zeros included.

Fixed-width unsigned numbers are read by `Decimal.readBelow?`, which allows one
leading plus sign and refuses a number at or above its bound.
-/

namespace LinkMeter.Decimal

def digitChar (digit : Nat) : Char := Char.ofNat (48 + digit)

def digitValue? (c : Char) : Option Nat :=
  if 48 ≤ c.toNat ∧ c.toNat ≤ 57 then some (c.toNat - 48) else none

def isDigit (c : Char) : Bool := (digitValue? c).isSome

/-- The decimal digits of a number, most significant first. -/
def render (n : Nat) : List Char :=
  if n < 10 then [digitChar n] else render (n / 10) ++ [digitChar (n % 10)]
termination_by n

/-- The decimal digits of a number as a string. -/
def text (n : Nat) : String := String.ofList (render n)

/-- Digits read after a number already read, most significant first. -/
def valueFrom (start : Nat) : List Char → Option Nat
  | [] => some start
  | c :: rest => (digitValue? c).bind fun digit => valueFrom (start * 10 + digit) rest

/-- The number that a non-empty run of digits stands for. -/
def read? (digits : List Char) : Option Nat :=
  if digits.isEmpty then none else valueFrom 0 digits

/-- A number below `bound`, written in digits after an optional plus sign. -/
def readBelow? (bound : Nat) (numeral : List Char) : Option Nat :=
  let digits := match numeral with
    | '+' :: rest => rest
    | _ => numeral
  (read? digits).filter (· < bound)

end LinkMeter.Decimal
