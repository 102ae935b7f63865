import LinkMeter.Number.Decimal

/-!
# Binary floating point, exactly

Rates, percentages and percentile ranks are computed in binary floating point
with a 53-bit significand, and printed or cut to integers afterwards.  A
non-negative value is held here as `significand * 2 ^ exponent`, and each
operation takes the exact rational result and rounds it once
(`Binary64.ofRatio`): to the nearest representable value, a tie to the even
significand, with the exponent never below `-1074`.

There is no upper end: a value at or above `2 ^ 1024`, which the 64-bit format
cannot hold, is told apart by `Binary64.isFinite`.
-/

namespace LinkMeter

/-- A non-negative binary floating-point value. -/
structure Binary64 where
  /-- The integral significand, at most `2 ^ 53`. -/
  significand : Nat
  /-- The power of two that scales the significand. -/
  exponent : Int
  deriving DecidableEq, Repr

namespace Binary64

/-- The quotient rounded to the nearest integer, a tie to the even one. -/
def roundDiv (num den : Nat) : Nat :=
  let floor := num / den
  let twice := 2 * (num % den)
  if twice < den then floor
  else if twice > den then floor + 1
  else floor + floor % 2

/-- A ratio times a power of two, as a ratio. -/
def scaled (num den : Nat) (shift : Int) : Nat × Nat :=
  if 0 ≤ shift then (num <<< shift.toNat, den) else (num, den <<< (-shift).toNat)

/-- The exponent at which the ratio has an integral part of 53 bits, or the
least exponent. -/
def scaleOf (num den : Nat) : Int :=
  let guess : Int := (Nat.log2 num : Int) - (Nat.log2 den : Int) - 52
  let (scaledNum, scaledDen) := scaled num den (-guess)
  let exponent := if scaledNum / scaledDen < 0x10_0000_0000_0000 then guess - 1 else guess
  max exponent (-1074)

/-- The representable value nearest to a ratio. -/
def ofRatio (num den : Nat) : Binary64 :=
  let exponent := scaleOf num den
  let (scaledNum, scaledDen) := scaled num den (-exponent)
  ⟨roundDiv scaledNum scaledDen, exponent⟩

/-- The representable value nearest to a natural number. -/
def ofNat (n : Nat) : Binary64 := ofRatio n 1

def ratio (x : Binary64) : Nat × Nat := scaled x.significand 1 x.exponent

/-- The product, rounded. -/
def mul (x y : Binary64) : Binary64 :=
  let (xn, xd) := x.ratio
  let (yn, yd) := y.ratio
  ofRatio (xn * yn) (xd * yd)

/-- The quotient, rounded; the divisor is not zero. -/
def div (x y : Binary64) : Binary64 :=
  let (xn, xd) := x.ratio
  let (yn, yd) := y.ratio
  ofRatio (xn * yd) (xd * yn)

/-- The sum, rounded. -/
def add (x y : Binary64) : Binary64 :=
  let (xn, xd) := x.ratio
  let (yn, yd) := y.ratio
  ofRatio (xn * yd + yn * xd) (xd * yd)

def floor (x : Binary64) : Nat := x.ratio.1 / x.ratio.2

/-- The whole part as a 64-bit word, and the largest word for what is larger. -/
def toWord (x : Binary64) : UInt64 := UInt64.ofNat (min x.floor (UInt64.size - 1))

def le (x y : Binary64) : Bool := x.ratio.1 * y.ratio.2 ≤ y.ratio.1 * x.ratio.2

def isZero (x : Binary64) : Bool := x.significand == 0

def isFinite (x : Binary64) : Bool := x.ratio.1 < (1 <<< 1024) * x.ratio.2

/-- The 64 bits of a finite value: the exponent field above the 52 low bits of
the significand.  A significand below `2 ^ 52` is subnormal and has the
exponent field zero. -/
def bits (x : Binary64) : Nat :=
  let carried : Nat × Int :=
    if x.significand = 0x20_0000_0000_0000 then (0x10_0000_0000_0000, x.exponent + 1)
    else (x.significand, x.exponent)
  if carried.1 < 0x10_0000_0000_0000 then carried.1
  else (carried.2 + 1075).toNat * 0x10_0000_0000_0000 + (carried.1 - 0x10_0000_0000_0000)

/-! ## Decimal text -/

/-- The value nearest to `digits * 10 ^ exponent`, if it is finite.  Decimals
far outside the range of the format are settled by their size alone. -/
def ofDecimal? (digits : Nat) (exponent : Int) : Option Binary64 :=
  let size : Int := ((Decimal.render digits).length : Int) + exponent
  if digits = 0 ∨ size < -400 then some ⟨0, -1074⟩
  else if size > 400 then none
  else
    let value :=
      if 0 ≤ exponent then ofRatio (digits * Nat.pow 10 exponent.toNat) 1
      else ofRatio digits (Nat.pow 10 (-exponent).toNat)
    if value.isFinite then some value else none

/-- A ratio with a fixed number of decimal places: the nearest such decimal, a
tie to the even last digit. -/
def fixedOfRatio (places num den : Nat) : String :=
  let units := roundDiv (num * Nat.pow 10 places) den
  let digits := Decimal.render units
  let padded := List.replicate (places + 1 - digits.length) '0' ++ digits
  let whole := padded.take (padded.length - places)
  let fraction := padded.drop (padded.length - places)
  String.ofList (if places = 0 then whole else whole ++ '.' :: fraction)

/-- A value with a fixed number of decimal places. -/
def fixed (places : Nat) (x : Binary64) : String := fixedOfRatio places x.ratio.1 x.ratio.2

end Binary64

end LinkMeter
