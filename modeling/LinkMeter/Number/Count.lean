/-!
# Counts in 64 bits

A count that is kept or published has 64 bits.  Counts are added up as natural
numbers, and a total that does not fit has no value, so no total is ever smaller
than what it is made of.
-/

namespace LinkMeter.Count

/-- A natural number as a count, if it fits. -/
def ofNat? (number : Nat) : Option UInt64 :=
  if number < UInt64.size then some (UInt64.ofNat number) else none

/-- The sum of two counts, if it fits. -/
def add? (first second : UInt64) : Option UInt64 := ofNat? (first.toNat + second.toNat)

/-- The sum of some counts as a natural number. -/
def sum (counts : List UInt64) : Nat := (counts.map UInt64.toNat).foldr (· + ·) 0

/-- The total of some counts, if it fits. -/
def total? (counts : List UInt64) : Option UInt64 := ofNat? (sum counts)

/-- A count has the value that it was made from. -/
theorem ofNat?_eq_some_iff {number : Nat} {count : UInt64} :
    ofNat? number = some count ↔ count.toNat = number := by
  unfold ofNat?
  constructor
  · intro h
    split at h
    case isTrue hfits =>
      rw [← Option.some.inj h]
      exact UInt64.toNat_ofNat_of_lt' hfits
    case isFalse => exact absurd h (by simp)
  · intro h
    have hfits : number < UInt64.size := h ▸ count.toNat_lt
    rw [if_pos hfits, ← h, UInt64.ofNat_toNat]

/-- The total of some counts is their sum. -/
theorem total?_eq_some_iff {counts : List UInt64} {total : UInt64} :
    total? counts = some total ↔ total.toNat = sum counts :=
  ofNat?_eq_some_iff

/-- There is a total if the sum fits. -/
theorem exists_total? {counts : List UInt64} (hfits : sum counts < UInt64.size) :
    ∃ total, total? counts = some total ∧ total.toNat = sum counts :=
  ⟨UInt64.ofNat (sum counts), if_pos hfits, UInt64.toNat_ofNat_of_lt' hfits⟩

end LinkMeter.Count
