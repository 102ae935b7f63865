/-!
# Bytes

Strings of bytes, and natural numbers written in a fixed number of bytes with
the low byte first or the high byte first.
-/

namespace LinkMeter

abbrev Bytes := List UInt8

namespace Bytes

/-- The `width` lowest bytes of a number, the low byte first. -/
def little : Nat → Nat → Bytes
  | 0, _ => []
  | width + 1, value => UInt8.ofNat (value % 256) :: little width (value / 256)

/-- The number that bytes stand for, the low byte first. -/
def littleValue : Bytes → Nat
  | [] => 0
  | byte :: rest => byte.toNat + 256 * littleValue rest

/-- The `width` lowest bytes of a number, the high byte first. -/
def big (width value : Nat) : Bytes := (little width value).reverse

/-- The number that bytes stand for, the high byte first. -/
def bigValue (bytes : Bytes) : Nat := littleValue bytes.reverse

@[simp] theorem length_little (width value : Nat) : (little width value).length = width := by
  induction width generalizing value with
  | zero => rfl
  | succ width ih => simp [little, ih]

@[simp] theorem length_big (width value : Nat) : (big width value).length = width := by
  simp [big]

end Bytes

end LinkMeter
