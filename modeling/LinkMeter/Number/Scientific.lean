import LinkMeter.Number.Binary64

/-!
# Decimal fractions

A decimal fraction is written as digits with at most one point among or around
them, after an optional sign and before an optional exponent.  It denotes digits
times a power of ten exactly; `Scientific.magnitude?` rounds that to the nearest
representable value.
-/

namespace LinkMeter

/-- A decimal fraction: `digits * 10 ^ exponent`, perhaps below zero. -/
structure Scientific where
  negative : Bool
  digits : Nat
  exponent : Int
  deriving DecidableEq, Inhabited, Repr

namespace Scientific

/-- Whether a text begins with a minus sign, and what follows its sign. -/
def readSign : List Char → Bool × List Char
  | '-' :: rest => (true, rest)
  | '+' :: rest => (false, rest)
  | text => (false, text)

/-- The digits behind a point at the head of a text, and what follows. -/
def readFraction : List Char → List Char × List Char
  | '.' :: rest => (rest.takeWhile Decimal.isDigit, rest.dropWhile Decimal.isDigit)
  | text => ([], text)

/-- The exponent that a text consists of; none at all stands for zero. -/
def readExponent? : List Char → Option Int
  | [] => some 0
  | c :: rest =>
    if c = 'e' ∨ c = 'E' then
      let (negative, digits) := readSign rest
      (Decimal.read? digits).map fun value => if negative then -(value : Int) else value
    else none

/-- The decimal fraction that a text consists of. -/
def read? (text : List Char) : Option Scientific := do
  let (negative, text) := readSign text
  let whole := text.takeWhile Decimal.isDigit
  let (fraction, rest) := readFraction (text.dropWhile Decimal.isDigit)
  let digits ← Decimal.read? (whole ++ fraction)
  let exponent ← readExponent? rest
  return ⟨negative, digits, exponent - fraction.length⟩

/-- The representable value nearest to the fraction without its sign, if it is
finite. -/
def magnitude? (number : Scientific) : Option Binary64 :=
  Binary64.ofDecimal? number.digits number.exponent

/-- The representable value nearest to the fraction, and zero in place of what is
below it. -/
def fromZero? (number : Scientific) : Option Binary64 :=
  if number.negative then some (Binary64.ofNat 0) else number.magnitude?

end Scientific

end LinkMeter
