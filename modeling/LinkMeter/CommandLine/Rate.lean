import LinkMeter.Number.Scientific
import LinkMeter.Text.Blank

/-!
# Rates on the command line

A rate is a decimal fraction in bits per second, with an optional unit of
thousands, millions or thousand millions behind it.  The fraction is rounded
before it is scaled and the product is rounded again; what is left of the point
counts, up to the largest word.
-/

namespace LinkMeter.CommandLine

/-- A text that is no rate. -/
structure InvalidRate where
  text : List Char
  deriving DecidableEq, Inhabited, Repr

namespace InvalidRate

/-- The line that reports it. -/
def message (invalid : InvalidRate) : String :=
  "invalid rate '" ++ String.ofList invalid.text ++ "'"

end InvalidRate

/-- The factor that a unit stands for. -/
def unitFactor? (c : Char) : Option Nat :=
  if c = 'k' ∨ c = 'K' then some 1_000
  else if c = 'm' ∨ c = 'M' then some 1_000_000
  else if c = 'g' ∨ c = 'G' then some 1_000_000_000
  else none

/-- A text without the unit at its end, and the factor of the unit. -/
def splitUnit (text : List Char) : List Char × Nat :=
  match text.getLast?.bind unitFactor? with
  | some factor => (text.dropLast, factor)
  | none => (text, 1)

/-- The value of a fraction that is a rate: finite, and not below zero. -/
def rateValue? (number : Scientific) : Option Binary64 :=
  number.magnitude?.filter fun value => !number.negative || value.isZero

def readRate (text : List Char) : Except InvalidRate UInt64 :=
  let trimmed := Text.trim text
  let (fraction, factor) := splitUnit trimmed
  match (Scientific.read? fraction).bind rateValue? with
  | some value => .ok (value.mul (.ofNat factor)).toWord
  | none => .error ⟨trimmed⟩

end LinkMeter.CommandLine
