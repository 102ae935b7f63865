import LinkMeter.Number.Binary64
import Mathlib.Algebra.Order.Field.Power
import Mathlib.Algebra.Order.Floor.Semifield
import Mathlib.Data.Rat.Floor
import Mathlib.Tactic.FieldSimp
import Mathlib.Tactic.Linarith
import Mathlib.Tactic.Positivity
import Mathlib.Tactic.Ring

/-!
# What rounding to floating point does to a number

A floating-point value stands for a rational number (`Binary64.value`).  An
operation rounds its exact result `q` once, and from one on the rounded value is
held on two sides (`Binary64.Rounds`):

* it exceeds `q` by `2 ^ (-53)` of it at most;
* it does not fall below a whole number of up to `2 ^ 52` that `q` reaches, or
  misses by `2 ^ (-54)` of itself at most.

The second fact is what a cut to an integer needs: a quotient that should be
whole is not cut to the number before.  It holds because whole numbers of that
size are floating-point values themselves, so one of them is nearer to `q` than
any value below it.
-/

namespace LinkMeter.Binary64

/-- The number that a floating-point value stands for. -/
def value (x : Binary64) : ℚ := x.significand * 2 ^ x.exponent

/-! ## Ratios -/

theorem ratio_scaled (num den : ℕ) (shift : ℤ) :
    ((scaled num den shift).1 : ℚ) / (scaled num den shift).2 = num / den * 2 ^ shift := by
  rw [scaled]
  split
  case isTrue hshift =>
    obtain ⟨places, rfl⟩ := Int.eq_ofNat_of_zero_le hshift
    rw [Int.toNat_natCast, Nat.shiftLeft_eq, zpow_natCast]
    push_cast
    ring
  case isFalse hshift =>
    obtain ⟨places, rfl⟩ : ∃ places : ℕ, shift = -(places : ℤ) := ⟨(-shift).toNat, by omega⟩
    rw [neg_neg, Int.toNat_natCast, Nat.shiftLeft_eq, zpow_neg, zpow_natCast]
    push_cast
    rw [← div_div, div_eq_mul_inv (num / den : ℚ)]

theorem den_scaled_pos {den : ℕ} (hden : 0 < den) (num : ℕ) (shift : ℤ) :
    0 < (scaled num den shift).2 := by
  rw [scaled]
  split
  case isTrue => exact hden
  case isFalse =>
    rw [Nat.shiftLeft_eq]
    exact Nat.mul_pos hden (Nat.two_pow_pos _)

theorem ratio_eq_value (x : Binary64) : (x.ratio.1 : ℚ) / x.ratio.2 = x.value := by
  rw [ratio, ratio_scaled, Nat.cast_one, div_one, value]

theorem den_ratio_pos (x : Binary64) : 0 < x.ratio.2 := den_scaled_pos Nat.one_pos _ _

theorem floor_eq (x : Binary64) : x.floor = ⌊x.value⌋₊ := by
  rw [floor, ← ratio_eq_value, Nat.floor_div_eq_div]

/-! ## The scale -/

/-- A number from one on is scaled to an integral part of 53 bits. -/
theorem scaleOf_spec {num den : ℕ} (hden : 0 < den) (hle : den ≤ num) :
    (2 : ℚ) ^ 52 ≤ num / den * 2 ^ (-scaleOf num den) ∧
      (num / den * 2 ^ (-scaleOf num den) : ℚ) < 2 ^ 53 := by
  have hnum : num ≠ 0 := by omega
  let guess : ℤ := (Nat.log2 num : ℤ) - Nat.log2 den - 52
  -- both numbers lie between two powers of two, so the guess is right or one too high
  have hnumLow : (2 : ℚ) ^ Nat.log2 num ≤ num := by exact_mod_cast Nat.log2_self_le hnum
  have hnumHigh : (num : ℚ) < 2 ^ (Nat.log2 num + 1) := by exact_mod_cast Nat.lt_log2_self
  have hdenLow : (2 : ℚ) ^ Nat.log2 den ≤ den := by exact_mod_cast Nat.log2_self_le hden.ne'
  have hdenHigh : (den : ℚ) < 2 ^ (Nat.log2 den + 1) := by exact_mod_cast Nat.lt_log2_self
  have hdenPos : (0 : ℚ) < den := by exact_mod_cast hden
  have hscale : (2 : ℚ) ^ (-guess) * 2 ^ Nat.log2 num = 2 ^ Nat.log2 den * 2 ^ 52 := by
    rw [← zpow_natCast, ← zpow_natCast, ← zpow_natCast, ← zpow_add₀ two_ne_zero,
      ← zpow_add₀ two_ne_zero]
    congr 1
    simp only [guess]
    push_cast
    ring
  have hpos : (0 : ℚ) < 2 ^ (-guess) := by positivity
  have hlow : (2 : ℚ) ^ 51 ≤ num / den * 2 ^ (-guess) := by
    rw [div_mul_eq_mul_div, le_div_iff₀ hdenPos]
    rw [pow_succ] at hdenHigh
    nlinarith
  have hhigh : (num / den * 2 ^ (-guess) : ℚ) < 2 ^ 53 := by
    rw [div_mul_eq_mul_div, div_lt_iff₀ hdenPos]
    rw [pow_succ] at hnumHigh
    nlinarith
  have hlog : Nat.log2 den ≤ Nat.log2 num := by
    have hlt : (2 : ℕ) ^ Nat.log2 den < 2 ^ (Nat.log2 num + 1) :=
      Nat.lt_of_le_of_lt ((Nat.log2_self_le hden.ne').trans hle) Nat.lt_log2_self
    exact Nat.le_of_lt_succ ((Nat.pow_lt_pow_iff_right Nat.one_lt_two).1 hlt)
  have hquotient : (scaled num den (-guess)).1 / (scaled num den (-guess)).2 <
      0x10_0000_0000_0000 ↔ (num / den * 2 ^ (-guess) : ℚ) < 2 ^ 52 := by
    rw [← ratio_scaled, Nat.div_lt_iff_lt_mul (den_scaled_pos hden _ _),
      div_lt_iff₀ (by exact_mod_cast den_scaled_pos hden num (-guess))]
    norm_cast
  have hexponent : scaleOf num den =
      if (num / den * 2 ^ (-guess) : ℚ) < 2 ^ 52 then guess - 1 else guess := by
    have hmax : scaleOf num den =
        max (if (num / den * 2 ^ (-guess) : ℚ) < 2 ^ 52 then guess - 1 else guess) (-1074) := by
      simp only [← hquotient]
      rfl
    rw [hmax, max_eq_left]
    split <;> omega
  rw [hexponent]
  split
  case isTrue hless =>
    have htwice : (2 : ℚ) ^ (-(guess - 1)) = 2 ^ (-guess) * 2 := by
      rw [neg_sub, sub_eq_add_neg, add_comm, zpow_add₀ two_ne_zero, zpow_one]
    rw [htwice, ← mul_assoc]
    constructor <;> linarith
  case isFalse hmore => exact ⟨not_lt.1 hmore, hhigh⟩

/-! ## Rounding once -/

/-- The quotient is rounded by half a unit at most. -/
theorem roundDiv_bounds {den : ℕ} (hden : 0 < den) (num : ℕ) :
    (num / den : ℚ) - 1 / 2 ≤ roundDiv num den ∧
      (roundDiv num den : ℚ) ≤ num / den + 1 / 2 := by
  have hbounds : 2 * num ≤ 2 * (roundDiv num den * den) + den ∧
      2 * (roundDiv num den * den) ≤ 2 * num + den := by
    have hdivmod := Nat.div_add_mod' num den
    have hmod := Nat.mod_lt num hden
    have heven : num / den % 2 = 0 ∨ num / den % 2 = 1 := Nat.mod_two_eq_zero_or_one _
    simp only [roundDiv]
    split
    · omega
    · split
      · rw [Nat.add_mul]
        omega
      · rcases heven with h | h <;> rw [h, Nat.add_mul] <;> omega
  have hpos : (0 : ℚ) < den := by exact_mod_cast hden
  have hlow : (2 * num : ℚ) ≤ 2 * (roundDiv num den * den) + den := by exact_mod_cast hbounds.1
  have hhigh : (2 * (roundDiv num den * den) : ℚ) ≤ 2 * num + den := by exact_mod_cast hbounds.2
  constructor
  · rw [sub_le_iff_le_add, div_le_iff₀ hpos]
    linarith
  · rw [← sub_le_iff_le_add, le_div_iff₀ hpos]
    linarith

/-- A floating-point value that a number from one on is rounded to. -/
structure Rounds (q : ℚ) (x : Binary64) : Prop where
  value_le : x.value ≤ q * (1 + 1 / 2 ^ 53)
  /-- A whole number that is reached, or missed by little, is reached after rounding. -/
  le_value : ∀ whole : ℕ, whole ≤ 2 ^ 52 → (whole : ℚ) ≤ q * (1 + 1 / 2 ^ 54) →
    (whole : ℚ) ≤ x.value

/-- A number of units that is half a unit away at most, where 53 bits hold the number. -/
theorem rounds_of_units {units : ℕ} {amount : ℚ} (hlow : 2 ^ 52 ≤ amount)
    (hhigh : amount < 2 ^ 53) (hnear : amount - 1 / 2 ≤ units ∧ units ≤ amount + 1 / 2)
    (exponent : ℤ) : Rounds (amount * 2 ^ exponent) ⟨units, exponent⟩ where
  value_le := by
    have hpos : (0 : ℚ) < 2 ^ exponent := by positivity
    rw [value, mul_right_comm]
    refine mul_le_mul_of_nonneg_right ?_ hpos.le
    linarith [hnear.2]
  le_value := by
    intro whole hwhole hreached
    have hunits : ∀ number : ℕ, (number : ℚ) < amount + 1 / 2 → number ≤ units := by
      intro number hlt
      have hnext : (number : ℚ) < units + 1 := by linarith [hnear.1]
      exact Nat.le_of_lt_succ (by exact_mod_cast hnext)
    rw [value]
    dsimp only
    rcases le_or_gt exponent 0 with hnegative | hpositive
    · -- whole numbers are multiples of the unit
      obtain ⟨places, rfl⟩ : ∃ places : ℕ, exponent = -(places : ℤ) :=
        ⟨(-exponent).toNat, by omega⟩
      rw [zpow_neg, zpow_natCast, ← div_eq_mul_inv] at hreached ⊢
      have hpos : (0 : ℚ) < 2 ^ places := by positivity
      rw [le_div_iff₀ hpos]
      rw [div_mul_eq_mul_div, le_div_iff₀ hpos] at hreached
      have hmultiple : whole * 2 ^ places ≤ units := by
        apply hunits
        push_cast
        linarith
      exact_mod_cast hmultiple
    · -- the unit is larger than one, and there are at least `2 ^ 52` of them
      have hmany : 2 ^ 52 ≤ units := by
        apply hunits
        push_cast
        linarith
      have hone : (1 : ℚ) ≤ 2 ^ exponent := one_le_zpow₀ one_le_two hpositive.le
      calc (whole : ℚ)
          ≤ units := by exact_mod_cast hwhole.trans hmany
        _ ≤ units * 2 ^ exponent := le_mul_of_one_le_right (Nat.cast_nonneg _) hone

theorem rounds_ofRatio {num den : ℕ} (hden : 0 < den) (hle : den ≤ num) :
    Rounds (num / den) (ofRatio num den) := by
  obtain ⟨hlow, hhigh⟩ := scaleOf_spec hden hle
  have hnear := roundDiv_bounds (den_scaled_pos hden num (-scaleOf num den))
    (scaled num den (-scaleOf num den)).1
  rw [ratio_scaled] at hnear
  have hrounds := rounds_of_units hlow hhigh hnear (scaleOf num den)
  rwa [mul_assoc, ← zpow_add₀ two_ne_zero, neg_add_cancel, zpow_zero, mul_one] at hrounds

theorem rounds_ofNat {n : ℕ} (hpos : 0 < n) : Rounds n (ofNat n) := by
  have hrounds := rounds_ofRatio Nat.one_pos hpos
  rwa [Nat.cast_one, div_one] at hrounds

theorem rounds_mul {x y : Binary64} (hone : 1 ≤ x.value * y.value) :
    Rounds (x.value * y.value) (x.mul y) := by
  have hvalue : (x.ratio.1 * y.ratio.1 : ℕ) / (x.ratio.2 * y.ratio.2 : ℕ) =
      x.value * y.value := by
    rw [← ratio_eq_value, ← ratio_eq_value]
    push_cast
    rw [div_mul_div_comm]
  have hden : 0 < x.ratio.2 * y.ratio.2 := Nat.mul_pos x.den_ratio_pos y.den_ratio_pos
  rw [← hvalue] at hone ⊢
  rw [one_le_div (by exact_mod_cast hden)] at hone
  exact rounds_ofRatio hden (by exact_mod_cast hone)

theorem rounds_div {x y : Binary64} (hpos : 0 < y.value) (hone : 1 ≤ x.value / y.value) :
    Rounds (x.value / y.value) (x.div y) := by
  have hvalue : (x.ratio.1 * y.ratio.2 : ℕ) / (x.ratio.2 * y.ratio.1 : ℕ) =
      x.value / y.value := by
    rw [← ratio_eq_value, ← ratio_eq_value]
    push_cast
    rw [div_div_div_eq]
  have hnum : 0 < y.ratio.1 := by
    rw [← ratio_eq_value] at hpos
    by_contra hzero
    rw [Nat.eq_zero_of_not_pos hzero, Nat.cast_zero, zero_div] at hpos
    exact lt_irrefl _ hpos
  have hden : 0 < x.ratio.2 * y.ratio.1 := Nat.mul_pos x.den_ratio_pos hnum
  rw [← hvalue] at hone ⊢
  rw [one_le_div (by exact_mod_cast hden)] at hone
  exact rounds_ofRatio hden (by exact_mod_cast hone)

end LinkMeter.Binary64
