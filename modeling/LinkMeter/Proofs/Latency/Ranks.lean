import LinkMeter.Latency
import LinkMeter.Proofs.Number.Rounding
import Mathlib.Tactic.NormNum

/-!
# The ranks of percentiles

A percentile is the sample at a position that is computed in floating point: the
number of samples is multiplied by the percentage, divided by one hundred and cut
to an integer (`percentileIndex`).  Each of these steps rounds, and so does the
percentage itself, which is no binary fraction in general.

The result is right all the same.  A position is never past the end, however many
samples there are (`Percentile.index_lt`), and up to `2 ^ 36` samples it is the one
that exact arithmetic gives (`Percentile.isExact_of_le`).
-/

namespace LinkMeter

/-- The percentiles that are reported. -/
inductive Percentile where
  | p50
  | p90
  | p95
  | p99
  | p999
  | p9999
  deriving DecidableEq, Repr

namespace Percentile

/-- The percentage in hundredths. -/
def hundredths : Percentile → ℕ
  | p50 => 5000
  | p90 => 9000
  | p95 => 9500
  | p99 => 9900
  | p999 => 9990
  | p9999 => 9999

/-- The rank of a percentile among so many samples, from one. -/
def rank (percentile : Percentile) (count : ℕ) : ℕ :=
  max 1 (count * percentile.hundredths / 10000)

def percent (percentile : Percentile) : Binary64 := percentOfHundredths percentile.hundredths

/-- The position of a percentile among so many samples, from zero. -/
def index (percentile : Percentile) (count : ℕ) : ℕ :=
  percentileIndex (max count 2) percentile.percent

/-- The position comes out as it does in exact arithmetic. -/
def IsExact (percentile : Percentile) (count : ℕ) : Prop :=
  percentile.index count = max count 2 * percentile.hundredths / 10000 - 1

open Binary64

variable (percentile : Percentile) {count : ℕ}

/-! ## Percentages -/

theorem hundredths_bounds : 5000 ≤ percentile.hundredths ∧ percentile.hundredths ≤ 9999 := by
  cases percentile <;> decide

/-- A percentage misses what it stands for by less than half a unit. -/
theorem le_value_percent :
    (percentile.hundredths / 100 : ℚ) ≤ percentile.percent.value * (1 + 1 / 2 ^ 54) := by
  have hvalue : percentile.percent =
      match percentile with
      | p50 => ⟨0x19000000000000, -47⟩
      | p90 => ⟨0x16800000000000, -46⟩
      | p95 => ⟨0x17c00000000000, -46⟩
      | p99 => ⟨0x18c00000000000, -46⟩
      | p999 => ⟨0x18f9999999999a, -46⟩
      | p9999 => ⟨0x18ff5c28f5c28f, -46⟩ := by
    cases percentile <;> decide +kernel
  rw [hvalue]
  cases percentile <;> norm_num [hundredths, value, zpow_neg]

theorem rounds_percent : Rounds (percentile.hundredths / 100) percentile.percent := by
  have hden : 0 < 100 := by decide
  have hlow := percentile.hundredths_bounds.1
  have hrounds := rounds_ofRatio hden ((by decide : 100 ≤ 5000).trans hlow)
  exact_mod_cast hrounds

theorem value_hundred : (Binary64.ofNat 100).value = 100 := by
  have hvalue : Binary64.ofNat 100 = ⟨0x19000000000000, -46⟩ := by decide +kernel
  rw [hvalue]
  norm_num [value, zpow_neg]

/-! ## Three roundings -/

/-- The rank before it is cut to an integer. -/
def quotient (percentile : Percentile) (count : ℕ) : Binary64 :=
  ((Binary64.ofNat count).mul percentile.percent).div (Binary64.ofNat 100)

theorem fifty_le_value_percent : (50 : ℚ) ≤ percentile.percent.value := by
  apply percentile.rounds_percent.le_value 50 (by norm_num)
  have hlow : (5000 : ℚ) ≤ percentile.hundredths := by
    exact_mod_cast percentile.hundredths_bounds.1
  push_cast
  linarith

/-- The product is rounded, and the quotient after it. -/
theorem rounds_quotient (hcount : 2 ≤ count) :
    Rounds ((Binary64.ofNat count).value * percentile.percent.value)
        ((Binary64.ofNat count).mul percentile.percent) ∧
      Rounds (((Binary64.ofNat count).mul percentile.percent).value / 100)
        (percentile.quotient count) := by
  have htwo : (2 : ℚ) ≤ (Binary64.ofNat count).value := by
    apply (rounds_ofNat (by omega)).le_value 2 (by norm_num)
    have hcast : (2 : ℚ) ≤ count := by exact_mod_cast hcount
    push_cast
    linarith
  have hhundred : (100 : ℚ) ≤ (Binary64.ofNat count).value * percentile.percent.value := by
    have hpercent := percentile.fifty_le_value_percent
    nlinarith
  have hproduct := rounds_mul ((by norm_num : (1 : ℚ) ≤ 100).trans hhundred)
  refine ⟨hproduct, ?_⟩
  have hreached : (100 : ℚ) ≤ ((Binary64.ofNat count).mul percentile.percent).value := by
    apply hproduct.le_value 100 (by norm_num)
    push_cast
    linarith
  have hpos : 0 < (Binary64.ofNat 100).value := by norm_num [value_hundred]
  have hone : 1 ≤ ((Binary64.ofNat count).mul percentile.percent).value /
      (Binary64.ofNat 100).value := by
    rw [value_hundred, one_le_div (by norm_num)]
    exact hreached
  rw [← value_hundred]
  exact rounds_div hpos hone

/-- Four roundings exceed the exact rank by little. -/
theorem value_quotient_le (hcount : 2 ≤ count) :
    (percentile.quotient count).value ≤
      count * percentile.hundredths / 10000 * (1 + 1 / 2 ^ 50) := by
  obtain ⟨hproduct, hquotient⟩ := percentile.rounds_quotient hcount
  have hfactor : (1 + 1 / 2 ^ 53 : ℚ) ^ 4 ≤ 1 + 1 / 2 ^ 50 := by norm_num
  have hcountLe := (rounds_ofNat (show 0 < count by omega)).value_le
  have hpercentLe := percentile.rounds_percent.value_le
  have hproductLe := hproduct.value_le
  have hquotientLe := hquotient.value_le
  have hpercentPos : (0 : ℚ) ≤ percentile.percent.value :=
    le_trans (by norm_num) percentile.fifty_le_value_percent
  have hpos : (0 : ℚ) ≤ 1 + 1 / 2 ^ 53 := by norm_num
  generalize (1 + 1 / 2 ^ 53 : ℚ) = factor at *
  calc (percentile.quotient count).value
      ≤ ((Binary64.ofNat count).mul percentile.percent).value / 100 * factor := hquotientLe
    _ ≤ (Binary64.ofNat count).value * percentile.percent.value * factor / 100 * factor := by
        gcongr
    _ ≤ count * factor * (percentile.hundredths / 100 * factor) * factor / 100 * factor := by
        gcongr
    _ = count * percentile.hundredths / 10000 * factor ^ 4 := by ring
    _ ≤ count * percentile.hundredths / 10000 * (1 + 1 / 2 ^ 50) := by gcongr

/-- Rounding does not fall below a whole rank. -/
theorem le_value_quotient (hcount : 2 ≤ count) (hsmall : count ≤ 2 ^ 45) {whole : ℕ}
    (hwhole : 10000 * whole ≤ count * percentile.hundredths) :
    (whole : ℚ) ≤ (percentile.quotient count).value := by
  obtain ⟨hproduct, hquotient⟩ := percentile.rounds_quotient hcount
  have hhigh := percentile.hundredths_bounds.2
  have hpercentPos : (0 : ℚ) ≤ percentile.percent.value :=
    le_trans (by norm_num) percentile.fifty_le_value_percent
  have hcountLe : (count : ℚ) ≤ (Binary64.ofNat count).value := by
    apply (rounds_ofNat (show 0 < count by omega)).le_value count (by omega)
    exact le_mul_of_one_le_right (Nat.cast_nonneg _) (by norm_num)
  have hreached : (100 * whole : ℚ) ≤
      (Binary64.ofNat count).value * percentile.percent.value * (1 + 1 / 2 ^ 54) := by
    have hcast : (10000 * whole : ℚ) ≤ count * percentile.hundredths := by exact_mod_cast hwhole
    calc (100 * whole : ℚ)
        ≤ count * (percentile.hundredths / 100) := by linarith
      _ ≤ count * (percentile.percent.value * (1 + 1 / 2 ^ 54)) :=
          mul_le_mul_of_nonneg_left percentile.le_value_percent (Nat.cast_nonneg _)
      _ ≤ (Binary64.ofNat count).value * (percentile.percent.value * (1 + 1 / 2 ^ 54)) :=
          mul_le_mul_of_nonneg_right hcountLe (by positivity)
      _ = (Binary64.ofNat count).value * percentile.percent.value * (1 + 1 / 2 ^ 54) :=
          (mul_assoc _ _ _).symm
  have hproductLe : ((100 * whole : ℕ) : ℚ) ≤
      ((Binary64.ofNat count).mul percentile.percent).value := by
    apply hproduct.le_value
    · have hless := Nat.mul_le_mul_left count hhigh
      omega
    · exact_mod_cast hreached
  apply hquotient.le_value
  · have hless := Nat.mul_le_mul_left count hhigh
    omega
  · push_cast at hproductLe
    have hwholePos : (0 : ℚ) ≤ whole := Nat.cast_nonneg _
    linarith

/-! ## Positions -/

theorem index_eq (percentile : Percentile) (count : ℕ) :
    percentile.index count =
      min ⌊(percentile.quotient (max count 2)).value⌋₊ (UInt64.size - 1) - 1 := by
  have hword : (percentile.quotient (max count 2)).toWord.toNat =
      min ⌊(percentile.quotient (max count 2)).value⌋₊ (UInt64.size - 1) := by
    rw [toWord, floor_eq, UInt64.toNat_ofNat_of_lt']
    have hsize : 0 < UInt64.size := by decide
    omega
  exact congrArg (· - 1) hword

/-- A position is that of a sample, however many there are. -/
theorem index_lt (hcount : 0 < count) : percentile.index count < count := by
  have hle := percentile.value_quotient_le (le_max_right count 2)
  have hhigh : (percentile.hundredths : ℚ) ≤ 9999 := by
    exact_mod_cast percentile.hundredths_bounds.2
  have htwo : (2 : ℚ) ≤ (max count 2 : ℕ) := by exact_mod_cast le_max_right count 2
  have hfloor : ⌊(percentile.quotient (max count 2)).value⌋₊ < max count 2 := by
    rw [Nat.floor_lt' (by omega)]
    nlinarith
  rw [index_eq]
  omega

/-- Positions are exact for batches that fit a memory. -/
theorem isExact_of_le (hcount : count ≤ 2 ^ 36) : percentile.IsExact count := by
  have htwo : 2 ≤ max count 2 := le_max_right count 2
  have hsmall : max count 2 ≤ 2 ^ 36 := max_le hcount (by norm_num)
  have hhigh := percentile.hundredths_bounds.2
  generalize hmany : max count 2 = many at htwo hsmall
  let whole := many * percentile.hundredths / 10000
  have hless := Nat.mul_le_mul_left many hhigh
  have hfloor : ⌊(percentile.quotient many).value⌋₊ = whole := by
    have hreached := percentile.le_value_quotient htwo (hsmall.trans (by norm_num))
      (show 10000 * whole ≤ many * percentile.hundredths from Nat.mul_div_le _ _)
    rw [Nat.floor_eq_iff ((Nat.cast_nonneg _).trans hreached)]
    refine ⟨hreached, (percentile.value_quotient_le htwo).trans_lt ?_⟩
    -- what is cut off is a ten-thousandth at least away from the next number
    have hnext : many * percentile.hundredths + 1 ≤ 10000 * (whole + 1) := by omega
    have hfew : many * percentile.hundredths < 2 ^ 50 := by omega
    have hnextCast : (many * percentile.hundredths + 1 : ℚ) ≤ 10000 * (whole + 1) := by
      exact_mod_cast hnext
    have hfewCast : (many * percentile.hundredths : ℚ) < 2 ^ 50 := by exact_mod_cast hfew
    linarith
  rw [IsExact, index_eq, hmany, hfloor, min_eq_left]
  have hsize : UInt64.size - 1 = 18446744073709551615 := by decide
  omega

/-- An exact position is the rank, counted from zero. -/
theorem succ_index_of_isExact (hcount : 0 < count) (hexact : percentile.IsExact count) :
    percentile.index count + 1 = percentile.rank count := by
  obtain ⟨hlow, hhigh⟩ := percentile.hundredths_bounds
  rw [hexact, rank]
  rcases Nat.lt_or_ge count 2 with hone | htwo
  · -- the rank of a single sample is taken over two
    obtain rfl : count = 1 := by omega
    rw [show max 1 2 = 2 from rfl, Nat.one_mul]
    omega
  · rw [max_eq_left htwo]
    omega

theorem rank_mono {first second : Percentile} (hle : first.hundredths ≤ second.hundredths)
    (count : ℕ) : first.rank count ≤ second.rank count :=
  max_le_max (le_refl _) (Nat.div_le_div_right (Nat.mul_le_mul_left count hle))

end Percentile

end LinkMeter
