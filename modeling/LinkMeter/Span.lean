/-!
# Spans of time

A `Span` is a length of time counted in nanoseconds.  Its whole seconds fit an
unsigned 64-bit word, which is what the wire format and the text formats carry,
so the bound is part of the type: a sum that would leave the range has no value
(`Span.add?`), and a difference stops at zero (`Span.monus`).

Spans are compared and divided as their number of nanoseconds; the split into
whole seconds and the nanoseconds below one second is a view of that number.
-/

namespace LinkMeter

/-- A length of time in nanoseconds, below `2 ^ 64` seconds. -/
@[ext]
structure Span where
  nanos : Nat
  /-- The whole seconds fit 64 bits. -/
  nanos_lt : nanos < 0x1_0000_0000_0000_0000 * 1_000_000_000
  deriving DecidableEq

namespace Span

def nanosPerSecond : Nat := 1_000_000_000

def zero : Span := ⟨0, by decide⟩

instance : Inhabited Span := ⟨zero⟩

instance : LE Span := ⟨fun first second => first.nanos ≤ second.nanos⟩

instance : LT Span := ⟨fun first second => first.nanos < second.nanos⟩

instance (first second : Span) : Decidable (first ≤ second) :=
  inferInstanceAs (Decidable (first.nanos ≤ second.nanos))

instance (first second : Span) : Decidable (first < second) :=
  inferInstanceAs (Decidable (first.nanos < second.nanos))

instance : Min Span := ⟨fun first second => if first ≤ second then first else second⟩

instance : Max Span := ⟨fun first second => if first ≤ second then second else first⟩

/-! ## Building a span -/

/-- The span of that many nanoseconds, if it is in range. -/
def ofNanos? (nanos : Nat) : Option Span :=
  if h : nanos < 0x1_0000_0000_0000_0000 * 1_000_000_000 then some ⟨nanos, h⟩ else none

/-- The span of a 64-bit number of nanoseconds, which is always in range. -/
def ofNanos (nanos : UInt64) : Span :=
  ⟨nanos.toNat, by have := nanos.toNat_lt; omega⟩

/-- The span of a 64-bit number of seconds. -/
def ofSeconds (seconds : UInt64) : Span :=
  ⟨seconds.toNat * 1_000_000_000, by have := seconds.toNat_lt; omega⟩

/-- The span of a 64-bit number of milliseconds. -/
def ofMillis (millis : UInt64) : Span :=
  ⟨millis.toNat * 1_000_000, by have := millis.toNat_lt; omega⟩

/-- Seconds and nanoseconds together.  Nanoseconds from one second up are
carried into the seconds; the result has no value when the seconds then leave
their 64 bits. -/
def ofParts? (seconds : UInt64) (nanos : UInt32) : Option Span :=
  ofNanos? (seconds.toNat * 1_000_000_000 + nanos.toNat)

/-! ## The two parts of a span -/

def seconds (span : Span) : Nat := span.nanos / 1_000_000_000

/-- The nanoseconds above the whole seconds. -/
def subNanos (span : Span) : Nat := span.nanos % 1_000_000_000

def micros (span : Span) : Nat := span.nanos / 1_000

theorem seconds_lt (span : Span) : span.seconds < 0x1_0000_0000_0000_0000 := by
  have := span.nanos_lt
  unfold seconds
  omega

theorem subNanos_lt (span : Span) : span.subNanos < 1_000_000_000 :=
  Nat.mod_lt _ (by decide)

theorem seconds_mul_add_subNanos (span : Span) :
    span.seconds * 1_000_000_000 + span.subNanos = span.nanos := by
  unfold seconds subNanos
  omega

/-! ## Arithmetic -/

/-- The sum of two spans, if it is in range. -/
def add? (first second : Span) : Option Span := ofNanos? (first.nanos + second.nanos)

/-- What is left of `first` after `second`, and nothing if `second` is longer. -/
def monus (first second : Span) : Span :=
  ⟨first.nanos - second.nanos, by have := first.nanos_lt; omega⟩

/-- How far two spans lie apart, in nanoseconds. -/
def distance (first second : Span) : Nat :=
  (first.nanos - second.nanos) + (second.nanos - first.nanos)

/-- An equal share of a span, rounded down to whole nanoseconds. -/
def share (span : Span) (count : Nat) : Span :=
  ⟨span.nanos / count, Nat.lt_of_le_of_lt (Nat.div_le_self _ _) span.nanos_lt⟩

def isZero (span : Span) : Bool := span.nanos == 0

@[simp] theorem nanos_zero : zero.nanos = 0 := rfl

@[simp] theorem nanos_share (span : Span) (count : Nat) :
    (span.share count).nanos = span.nanos / count := rfl

theorem le_iff {first second : Span} : first ≤ second ↔ first.nanos ≤ second.nanos := Iff.rfl

theorem lt_iff {first second : Span} : first < second ↔ first.nanos < second.nanos := Iff.rfl

end Span

end LinkMeter
