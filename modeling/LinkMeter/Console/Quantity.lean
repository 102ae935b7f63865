import LinkMeter.Outcome.Summary
import LinkMeter.Text.Lines

/-!
# Quantities for reading

Rates, sizes and times with a unit that keeps them short.  Rates and sizes step
by powers of a thousand and are set in a column of six characters; the largest
unit takes whatever is above it.
-/

namespace LinkMeter.Console

/-- A number divided by a unit, with two decimal places, in a column of six. -/
def inUnits (number : Nat) (unit : Nat) : String :=
  Text.padLeft 6 (((Binary64.ofNat number).div (Binary64.ofNat unit)).fixed 2)

/-- A rate in bits per second.  The unit is chosen by the floating-point value
of the rate. -/
def bitRate (bits : UInt64) : String :=
  let value := Binary64.ofNat bits.toNat
  let reaches (unit : Nat) : Bool := (Binary64.ofNat unit).le value
  if reaches 1_000_000_000 then inUnits bits.toNat 1_000_000_000 ++ " Gbits/sec"
  else if reaches 1_000_000 then inUnits bits.toNat 1_000_000 ++ " Mbits/sec"
  else if reaches 1_000 then inUnits bits.toNat 1_000 ++ " Kbits/sec"
  else Text.padLeft 6 (value.fixed 0) ++ " bits/sec"

def size (bytes : UInt64) : String :=
  if bytes.toNat ≥ 1_000_000_000 then inUnits bytes.toNat 1_000_000_000 ++ " GBytes"
  else if bytes.toNat ≥ 1_000_000 then inUnits bytes.toNat 1_000_000 ++ " MBytes"
  else inUnits bytes.toNat 1_000 ++ " KBytes"

/-- A length of time. -/
def span (length : Span) : String :=
  let micros := length.micros
  if micros ≥ 1_000_000 then length.inSeconds.fixed 2 ++ "s"
  else if micros ≥ 1_000 then
    ((Binary64.ofNat micros).div (Binary64.ofNat 1_000)).fixed 2 ++ "ms"
  else Decimal.text micros ++ "us"

/-- A counter in a column. -/
def counter (width : Nat) (value : Nat) : String := Text.padLeft width (Decimal.text value)

end LinkMeter.Console
