import Stablecoin.Proofs.Decimal.Exact
import Stablecoin.Proofs.Validated

/-!
# How exact fees are

A fee is the nearest whole number to its share of an amount, up to the rounding of the product; and
what a valid rate leaves of one is exact.
-/
namespace Stablecoin

/-- What is charged for a value is the nearest whole number. -/
theorem Decimal.charge_bounds {d : Decimal} {n : Nat} (nonneg : 0 ≤ d.toRat)
    (charged : d.charge = .ok n) : d.toRat - 1 / 2 < n ∧ (n : ℚ) ≤ d.toRat + 1 / 2 := by
  have positive := coefficient_nonneg nonneg
  have unit := tenPow_pos d.scale
  have whole : (2 * d.coefficient.natAbs + tenPow d.scale) / (2 * tenPow d.scale) = n := by
    have rounded : d.roundHalfUp = n := amountOf_ok.mp charged
    rw [roundHalfUp] at rounded
    rcases positive.eq_or_lt with zero | above
    · rw [← zero, Int.sign_zero, zero_mul] at rounded
      rw [← zero, Int.natAbs_zero, Nat.mul_zero, Nat.zero_add, Nat.div_eq_of_lt (by omega)]
      exact_mod_cast rounded
    · rw [Int.sign_eq_one_of_pos above, one_mul] at rounded
      exact_mod_cast rounded
  have low := Nat.div_mul_le_self (2 * d.coefficient.natAbs + tenPow d.scale) (2 * tenPow d.scale)
  have high : 2 * d.coefficient.natAbs + tenPow d.scale
      < (2 * d.coefficient.natAbs + tenPow d.scale) / (2 * tenPow d.scale) * (2 * tenPow d.scale)
        + 2 * tenPow d.scale := Nat.lt_div_mul_add (by omega)
  rw [whole] at low high
  have magnitude : (d.coefficient.natAbs : ℚ) = d.toRat * 10 ^ d.scale := by
    rw [toRat_eq, div_mul_cancel₀ _ (by positivity), ← Int.cast_natCast,
      Int.natAbs_of_nonneg positive]
  have low' : (n : ℚ) * (2 * 10 ^ d.scale) ≤ 2 * (d.toRat * 10 ^ d.scale) + 10 ^ d.scale := by
    rw [← magnitude, ← cast_tenPow]
    exact_mod_cast low
  have high' : 2 * (d.toRat * 10 ^ d.scale) + 10 ^ d.scale
      < n * (2 * 10 ^ d.scale) + 2 * 10 ^ d.scale := by
    rw [← magnitude, ← cast_tenPow]
    exact_mod_cast high
  have scale : (0 : ℚ) < 10 ^ d.scale := by positivity
  constructor
  · refine lt_of_mul_lt_mul_right ?_ scale.le
    linarith
  · refine le_of_mul_le_mul_right ?_ scale
    linarith

/-- What is charged for the value of coins at a rate is no more than the nearest whole number. -/
theorem Coin.charge_le {c : Coin} {rate value : Decimal} {n : Nat} (nonneg : 0 ≤ rate.toRat)
    (valued : c.worth rate = .ok value) (charged : value.charge = .ok n) :
    (n : ℚ) ≤ c.amount * rate.toRat + 1 / 2 + (1 + c.amount * rate.toRat) / 10 ^ 28 := by
  have near := (Coin.worth_near valued).le (by positivity)
  simp only [worth, toDecimal, bind_ok] at valued
  obtain ⟨amount, counted, multiplied⟩ := valued
  have whole := Decimal.ofAmount_toRat counted
  have product := Decimal.mul_nonneg multiplied (whole ▸ Nat.cast_nonneg _) nonneg
  linarith [(Decimal.charge_bounds product charged).2]

/-- What a valid rate leaves of one is positive and exact. -/
theorem feeComplement_ok {name : String} {rate : Option Decimal} {complement : Decimal}
    (fraction : IsFraction rate) (left : feeComplement name rate = .ok complement) :
    complement.toRat = 1 - (rate.getD 0).toRat ∧ 0 < complement.toRat := by
  obtain ⟨nonneg, below⟩ := fraction.getD
  simp only [feeComplement, bind_ok, Decimal.subTrusted_ok] at left
  obtain ⟨_, -, left⟩ := left
  have exact' := Decimal.one_sub?_toRat nonneg below.le left
  exact ⟨exact', by linarith⟩

theorem getD_zero_nonneg {rate : Option Decimal} (nonneg : ∀ r ∈ rate, 0 ≤ r.toRat) :
    0 ≤ (rate.getD 0).toRat := by
  cases rate with
  | none => exact Decimal.toRat_zero.ge
  | some rate => exact nonneg rate rfl

namespace Coin

variable {c fee : Coin} {rate : Option Decimal} (nonneg : ∀ r ∈ rate, 0 ≤ r.toRat)
  (charged : c.fee rate = .ok fee)
include nonneg charged

/-- A fee is the nearest whole number to the product of amount and rate. -/
theorem fee_ok : ∃ value : Decimal, value.toRat - 1 / 2 < fee.amount ∧
    (fee.amount : ℚ) ≤ value.toRat + 1 / 2 ∧ value.Near (c.amount * (rate.getD 0).toRat) ∧
    ∀ exact' : Decimal, c.amount * (rate.getD 0).toRat = exact'.toRat →
      value.toRat = exact'.toRat := by
  cases rate with
  | none =>
    cases charged
    refine ⟨0, ?_, ?_, .of_eq ?_, fun exact' same => ?_⟩
    · norm_num [Coin.zero]
    · norm_num [Coin.zero]
    · norm_num
    · rw [← same]
      norm_num
  | some rate =>
    simp only [Coin.fee, bind_ok, pure_ok] at charged
    obtain ⟨amount, counted, value, multiplied, fee, rounded, rfl⟩ := charged
    have whole := Decimal.ofAmount_toRat counted
    have product_nonneg :=
      Decimal.mul_nonneg multiplied (whole ▸ Nat.cast_nonneg _) (nonneg rate rfl)
    obtain ⟨low, high⟩ := Decimal.charge_bounds product_nonneg rounded
    have near := Decimal.mul_near multiplied
    have faithful := Decimal.mul?_faithful (orOverflow_ok.mp multiplied)
    rw [whole] at near faithful
    exact ⟨value, low, high, near, fun exact' same => (same ▸ faithful).eq_toRat⟩

theorem fee_le : (fee.amount : ℚ) ≤ c.amount * (rate.getD 0).toRat + 1 / 2
    + (1 + c.amount * (rate.getD 0).toRat) / 10 ^ 28 := by
  have share := getD_zero_nonneg nonneg
  obtain ⟨value, -, high, near, -⟩ := fee_ok nonneg charged
  linarith [near.le (by positivity)]

theorem lt_fee : c.amount * (rate.getD 0).toRat
    < fee.amount + 1 / 2 + (1 + c.amount * (rate.getD 0).toRat) / 10 ^ 28 := by
  have share := getD_zero_nonneg nonneg
  obtain ⟨value, low, -, near, -⟩ := fee_ok nonneg charged
  linarith [near.ge (by positivity)]

/-- Where the share of the amount is a decimal, only the fee itself is rounded. -/
theorem fee_exact {share : Decimal} (same : c.amount * (rate.getD 0).toRat = share.toRat) :
    c.amount * (rate.getD 0).toRat - 1 / 2 < fee.amount ∧
      (fee.amount : ℚ) ≤ c.amount * (rate.getD 0).toRat + 1 / 2 := by
  obtain ⟨value, low, high, -, kept⟩ := fee_ok nonneg charged
  rw [kept _ same, ← same] at low high
  exact ⟨low, high⟩

theorem fee_millionths {part : Nat} (whole : (rate.getD 0).IsMillionths part)
    (small : c.amount * part < Decimal.coefficientBound) :
    c.amount * (rate.getD 0).toRat - 1 / 2 < fee.amount ∧
      (fee.amount : ℚ) ≤ c.amount * (rate.getD 0).toRat + 1 / 2 := by
  have same : c.amount * (rate.getD 0).toRat
      = (Decimal.ofMillionths (c.amount * part : Nat) small).toRat := by
    rw [Decimal.ofMillionths_toRat, whole]
    push_cast
    ring
  exact fee_exact nonneg charged same

omit nonneg charged in
/-- A share of an amount in range can be charged, and is no more than the amount. -/
theorem fee_of_fraction (fraction : IsFraction rate) (small : c.amount < Decimal.coefficientBound) :
    ∃ fee, c.fee rate = .ok fee ∧ fee.amount ≤ c.amount := by
  cases rate with
  | none => exact ⟨_, rfl, Nat.zero_le _⟩
  | some rate =>
    obtain ⟨low, high⟩ := fraction rate rfl
    have counted := Decimal.ofAmount_of_lt small
    have amount := Decimal.ofAmount_toRat counted
    have amount_nonneg := (Nat.cast_nonneg c.amount).trans_eq amount.symm
    obtain ⟨value, multiplied, within⟩ := Decimal.mul?_share amount_nonneg low high.le
    have nonneg := Decimal.mul?_nonneg multiplied amount_nonneg low
    have rounded := Decimal.roundHalfUp_nonneg nonneg
    have atMost := Decimal.roundHalfUp_le nonneg (within.trans_eq amount)
    have charged : value.charge = .ok value.roundHalfUp.toNat :=
      amountOf_ok.mpr (Int.toNat_of_nonneg rounded).symm
    refine ⟨⟨c.denom, value.roundHalfUp.toNat⟩, ?_, by dsimp only; omega⟩
    simp only [fee, bind_ok, pure_ok]
    exact ⟨_, counted, value, orOverflow_ok.mpr multiplied, _, charged, rfl⟩

omit nonneg charged in
/-- No fee is taken at a rate of zero. -/
theorem fee_of_zero (free : ∀ r ∈ rate, r.toRat = 0)
    (small : c.amount < Decimal.coefficientBound) : c.fee rate = .ok (Coin.zero c.denom) := by
  cases rate with
  | none => rfl
  | some rate =>
    have zero : rate.isZero = true := Decimal.isZero_iff.mpr (free rate rfl)
    have product (amount : Decimal) : amount.mul rate = .ok 0 := by
      rw [Decimal.mul, Decimal.mul?, if_pos (.inr zero)]
      rfl
    simp only [Coin.fee, Coin.toDecimal, Decimal.ofAmount_of_lt small, product, ok_bind]
    rfl

end Coin

end Stablecoin
