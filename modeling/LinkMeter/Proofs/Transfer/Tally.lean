import LinkMeter.Proofs.Outcome.Totals

/-!
# What tallies count

A tally holds units and bytes, and what it holds moves as much as the sample
that it is handed over as (`Quantity.total_flush`).  So whatever is counted is
still held or was handed over, whether the flush period is over or not
(`Transfer.Tally.add?_spec`).
-/

namespace LinkMeter

open Transfer (Counting Tally)

namespace Quantity

variable {quantity : Quantity}

/-- How much a tally holds. -/
def ofTally (quantity : Quantity) (tally : Tally) : ℕ :=
  quantity.ofCount tally.counting tally.units tally.bytes

/-- How much some tallies hold. -/
def pending (quantity : Quantity) (tallies : List Tally) : ℕ := (tallies.map quantity.ofTally).sum

/-- How much was counted in one way, by units and bytes. -/
def counted (quantity : Quantity) (counting : Counting) (counts : List (UInt64 × UInt64)) : ℕ :=
  (counts.map fun count => quantity.ofCount counting count.1 count.2).sum

theorem counted_append_singleton (quantity : Quantity) (counting : Counting)
    (counts : List (UInt64 × UInt64)) (units bytes : UInt64) :
    quantity.counted counting (counts ++ [(units, bytes)]) =
      quantity.counted counting counts + quantity.ofCount counting units bytes := by
  rw [counted, List.map_append, List.sum_append, List.map_singleton, List.sum_singleton, counted]

theorem pending_set (quantity : Quantity) {tallies : List Tally} {place : ℕ} {tally : Tally}
    (h : tallies[place]? = some tally) (next : Tally) :
    quantity.pending (tallies.set place next) + quantity.ofTally tally =
      quantity.pending tallies + quantity.ofTally next := by
  induction tallies generalizing place with
  | nil => simp at h
  | cons first tallies ih =>
      cases place with
      | zero =>
          obtain rfl : first = tally := by simpa using h
          simp only [pending, List.set_cons_zero, List.map_cons, List.sum_cons]
          omega
      | succ place =>
          have hothers := ih (by simpa using h)
          simp only [pending, List.set_cons_succ, List.map_cons, List.sum_cons] at hothers ⊢
          omega

theorem pending_eq_zero {tallies : List Tally}
    (h : ∀ tally ∈ tallies, tally.units = 0 ∧ tally.bytes = 0) : quantity.pending tallies = 0 := by
  apply List.sum_eq_zero
  intro amount hamount
  obtain ⟨tally, htally, rfl⟩ := List.mem_map.mp hamount
  obtain ⟨hunits, hbytes⟩ := h tally htally
  rw [ofTally, hunits, hbytes, ofCount_zero]

/-- The sample of a tally moves what the tally holds. -/
theorem total_flush (tally : Tally) : quantity.total tally.flush.1 = quantity.ofTally tally := by
  rw [Tally.flush, ofTally]
  split
  case isTrue => rw [total_cons, total_nil, ofReport_sample, Nat.add_zero]
  case isFalse hempty =>
    rw [not_or, UInt64.not_lt, UInt64.not_lt, UInt64.le_zero_iff, UInt64.le_zero_iff] at hempty
    rw [hempty.1, hempty.2, ofCount_zero, total_nil]

theorem ofTally_flush (tally : Tally) : quantity.ofTally tally.flush.2 = 0 :=
  ofCount_zero tally.counting

end Quantity

namespace Transfer.Tally

variable {tally next : Tally} {units bytes : UInt64} {due : Bool} {samples : List Outcome}

theorem feeds_flush (tally : Tally) : ∀ outcome ∈ tally.flush.1, tally.counting.Feeds outcome := by
  intro outcome houtcome
  rw [flush] at houtcome
  split at houtcome
  case isTrue => exact List.mem_singleton.mp houtcome ▸ .sample tally.units tally.bytes
  case isFalse => exact absurd houtcome List.not_mem_nil

private theorem toNat_add_of_add? {first second sum : UInt64}
    (h : Count.add? first second = some sum) :
    (first + second).toNat = first.toNat + second.toNat := by
  rw [Count.add?, Count.ofNat?_eq_some_iff] at h
  have hlt := sum.toNat_lt
  rw [UInt64.toNat_add, Nat.mod_eq_of_lt (by omega)]

/-- What is counted is handed over or still held, and samples come in the way of the tally. -/
theorem add?_spec (h : tally.add? units bytes due = some (samples, next)) :
    next.counting = tally.counting ∧ (∀ outcome ∈ samples, tally.counting.Feeds outcome) ∧
      ∀ quantity : Quantity, quantity.total samples + quantity.ofTally next =
        quantity.ofTally tally + quantity.ofCount tally.counting units bytes := by
  rw [add?] at h
  split at h
  case h_2 => exact absurd h (by simp)
  case h_1 hunits hbytes =>
    let held : Tally := { tally with units := tally.units + units, bytes := tally.bytes + bytes }
    have hheld : ∀ quantity : Quantity, quantity.ofTally held =
        quantity.ofTally tally + quantity.ofCount tally.counting units bytes := fun quantity =>
      Quantity.ofCount_add _ (toNat_add_of_add? hunits) (toNat_add_of_add? hbytes)
    have hadd : (if due then held.flush else ([], held)) = (samples, next) := Option.some.inj h
    cases due with
    | true =>
        obtain rfl : held.flush.1 = samples := congrArg Prod.fst hadd
        obtain rfl : held.flush.2 = next := congrArg Prod.snd hadd
        refine ⟨rfl, held.feeds_flush, fun quantity => ?_⟩
        rw [← hheld, Quantity.ofTally_flush, Quantity.total_flush, Nat.add_zero]
    | false =>
        obtain ⟨rfl, rfl⟩ := Prod.mk.inj hadd
        refine ⟨rfl, fun _ hnone => absurd hnone List.not_mem_nil, fun quantity => ?_⟩
        rw [← hheld, Quantity.total_nil, Nat.zero_add]

end Transfer.Tally

end LinkMeter
