import LinkMeter.Proofs.Pacing.Cap
import Mathlib.Order.Bounds.Defs

/-!
# Where a wait ends

The boundaries behind a tick lie one period apart, and a wait ends at the first
of them that is still to come.  An instant on a boundary has passed it, so a wait
that begins there lasts a whole period and none lasts no time.

All of it follows from one equation: a wait ends at the boundary whose number is
the count of those that have passed (`add_waitFrom`).  So waits are compared by
comparing counts, and two waits end together exactly if the counts agree.
-/

namespace LinkMeter.Pacing

variable {lastTick now later : Instant}

theorem firstBoundary_eq (lastTick : Instant) :
    firstBoundary lastTick = lastTick + 1_050_000_000 :=
  Nat.add_assoc _ _ _

/-! ## One wait -/

theorem waitFrom_pos (hnumbered : Numbered lastTick now) : 0 < waitFrom lastTick now := by
  have hend := add_waitFrom hnumbered
  have hafter : now < boundary lastTick (passed lastTick now) :=
    lt_boundary_iff.2 (Nat.le_refl _)
  unfold Instant at *
  omega

/-- No shorter time leads to a boundary. -/
theorem waitFrom_le (hnumbered : Numbered lastTick now) {wait : ℕ} (hpos : 0 < wait)
    (hboundary : IsBoundary lastTick (now + wait)) : waitFrom lastTick now ≤ wait := by
  obtain ⟨index, hindex⟩ := hboundary
  have hahead : passed lastTick now ≤ index := by
    rw [← lt_boundary_iff, ← hindex]
    exact Nat.lt_add_of_pos_right hpos
  have hend : now + waitFrom lastTick now ≤ now + wait := by
    rw [add_waitFrom hnumbered, hindex]
    exact Nat.add_le_add_left (Nat.mul_le_mul_left period hahead) _
  exact Nat.le_of_add_le_add_left hend

theorem waitFrom_isLeast (hnumbered : Numbered lastTick now) :
    IsLeast {wait | 0 < wait ∧ IsBoundary lastTick (now + wait)} (waitFrom lastTick now) :=
  ⟨⟨waitFrom_pos hnumbered, passed lastTick now, add_waitFrom hnumbered⟩,
    fun _ hwait => waitFrom_le hnumbered hwait.1 hwait.2⟩

theorem waitFrom_of_lt (hfirst : now < firstBoundary lastTick) :
    waitFrom lastTick now = firstBoundary lastTick - now := by
  rw [waitFrom, nextBoundary]
  exact congrArg (· - now) (if_pos hfirst)

theorem exists_boundary_le (hfirst : firstBoundary lastTick ≤ now) :
    ∃ index, passed lastTick now = index + 1 ∧ boundary lastTick index ≤ now := by
  have hpassed : passed lastTick now = (now - firstBoundary lastTick) / period + 1 :=
    if_neg (Nat.not_lt.2 hfirst)
  refine ⟨(now - firstBoundary lastTick) / period, hpassed, ?_⟩
  rw [boundary_le_iff, hpassed]
  exact Nat.lt_succ_self _

/-- A wait is as much shorter than a period as its beginning lies behind a boundary. -/
theorem waitFrom_of_le (hnumbered : Numbered lastTick now)
    (hfirst : firstBoundary lastTick ≤ now) :
    waitFrom lastTick now ≤ period ∧
      (waitFrom lastTick now = period ↔ IsBoundary lastTick now) := by
  obtain ⟨index, hpassed, hle⟩ := exists_boundary_le hfirst
  have hend : now + waitFrom lastTick now = boundary lastTick index + period := by
    rw [add_waitFrom hnumbered, hpassed]
    exact (Nat.add_assoc _ _ _).symm
  constructor
  · unfold Instant at *
    omega
  · constructor
    · intro hperiod
      rw [hperiod] at hend
      exact ⟨index, Nat.add_right_cancel hend⟩
    · rintro ⟨other, rfl⟩
      -- the last boundary that has passed is the one on which the wait begins
      have hsame : index = other := by
        have hother : other < index + 1 := by
          rw [← hpassed, ← boundary_le_iff]
        simp only [boundary, period] at hle
        unfold Instant at *
        omega
      rw [hsame] at hend
      exact Nat.add_left_cancel hend

/-! ## Two waits -/

theorem add_waitFrom_mono (hnumbered : Numbered lastTick later) (hlater : now ≤ later) :
    now + waitFrom lastTick now ≤ later + waitFrom lastTick later := by
  rw [add_waitFrom hnumbered, add_waitFrom (hnumbered.of_le hlater)]
  exact Nat.add_le_add_left (Nat.mul_le_mul_left period (passed_mono lastTick hlater)) _

/-- Two waits end at the same boundary if none lies between their beginnings. -/
theorem add_waitFrom_eq_iff (hnumbered : Numbered lastTick later) (hlater : now ≤ later) :
    now + waitFrom lastTick now = later + waitFrom lastTick later ↔
      boundariesIn lastTick now later = ∅ := by
  rw [add_waitFrom hnumbered, add_waitFrom (hnumbered.of_le hlater),
    (boundary_injective lastTick).eq_iff, ← Finset.card_eq_zero, card_boundariesIn]
  have hmono := passed_mono lastTick hlater
  omega

/-- The boundaries behind a tick are numbered from 1.05 s on, one in each second.  As long as the
number fits 32 bits, a wait is the shortest time that leads from an instant to a boundary and is not
zero.  Before the first boundary it lasts to that one; after it, it lasts a second at most, and just
a second from a boundary.  Of two instants, the later one waits for no earlier boundary, and both
wait for the same one exactly if there is none after the first by the second. -/
theorem waits_end_at_boundaries :
    (∀ (lastTick now : Instant), Numbered lastTick now →
      IsLeast {wait | 0 < wait ∧ ∃ index : ℕ,
        now + wait = lastTick + 1_050_000_000 + 1_000_000_000 * index} (waitFrom lastTick now) ∧
      (now < lastTick + 1_050_000_000 →
        waitFrom lastTick now = lastTick + 1_050_000_000 - now) ∧
      (lastTick + 1_050_000_000 ≤ now → 0 < waitFrom lastTick now ∧
        waitFrom lastTick now ≤ 1_000_000_000 ∧
        (waitFrom lastTick now = 1_000_000_000 ↔ IsBoundary lastTick now))) ∧
    ∀ (lastTick now later : Instant), Numbered lastTick later → now ≤ later →
      now + waitFrom lastTick now ≤ later + waitFrom lastTick later ∧
      (now + waitFrom lastTick now = later + waitFrom lastTick later ↔
        boundariesIn lastTick now later = ∅) := by
  constructor
  · intro lastTick now hnumbered
    have hleast := waitFrom_isLeast hnumbered
    simp only [IsBoundary, boundary] at hleast
    rw [← firstBoundary_eq]
    exact ⟨hleast, waitFrom_of_lt,
      fun hfirst => ⟨waitFrom_pos hnumbered, waitFrom_of_le hnumbered hfirst⟩⟩
  · intro lastTick now later hnumbered hlater
    exact ⟨add_waitFrom_mono hnumbered hlater, add_waitFrom_eq_iff hnumbered hlater⟩

/-- A wait that begins on the second boundary lasts a whole second, and one that begins a nanosecond
before the third ends with it; one that begins a nanosecond before the second does not.  A wait for
the first boundary behind a tick that is still to come lasts longer. -/
theorem waits_end_at_boundaries_neighbours :
    (Numbered 0 2_050_000_000 ∧ Numbered 0 3_049_999_999 ∧ Numbered 5_000_000_000 1_000_000_000) ∧
    waitFrom 0 2_050_000_000 = 1_000_000_000 ∧
    boundariesIn 0 2_050_000_000 3_049_999_999 = ∅ ∧
    boundariesIn 0 2_049_999_999 2_050_000_000 ≠ ∅ ∧
    waitFrom 5_000_000_000 1_000_000_000 = 5_050_000_000 := by
  obtain ⟨hone, htwo⟩ := waits_end_at_boundaries
  have hsecond : Numbered 0 2_050_000_000 := ⟨2, by decide, by decide⟩
  have hthird : Numbered 0 3_049_999_999 := ⟨2, by decide, by decide⟩
  have hearly : Numbered 5_000_000_000 1_000_000_000 := ⟨0, by decide, by decide⟩
  refine ⟨⟨hsecond, hthird, hearly⟩, ?_, ?_, ?_, ?_⟩
  · exact ((hone _ _ hsecond).2.2 (by decide)).2.2.2 ⟨1, by decide⟩
  · exact (htwo _ _ _ hthird (by decide)).2.1 (by decide)
  · intro hempty
    exact absurd ((htwo _ _ _ hsecond (by decide)).2.2 hempty) (by decide)
  · exact (hone _ _ hearly).2.1 (by decide)

end LinkMeter.Pacing
