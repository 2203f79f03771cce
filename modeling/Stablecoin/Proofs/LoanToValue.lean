import Stablecoin.Collateral.LoanToValue
import Stablecoin.Proofs.Valuation

/-!
# The usable loan-to-value

The usable loan-to-value is at most the maximum one up to rounding. Rounding matters for a tiny
catalytic ratio: the product of the ratio with the spread between the two loan-to-values is rounded
to 28 digits and then divided by the ratio again, which magnifies what the rounding added.
-/
namespace Stablecoin

/-- Half of the last digit over a positive decimal is no more than a half. -/
theorem Decimal.half_div_le {cap : Decimal} (positive : 0 < cap.toRat) :
    1 / (2 * cap.toRat) ≤ 10 ^ 28 / 2 := by
  have least := Decimal.le_of_pos positive
  rw [div_le_div_iff₀ (by positivity) two_pos]
  linarith

namespace CollateralParams

/-- The loan-to-values are shares, the basic one no more than the maximum, and so is the
liquidation threshold. -/
theorem validate_ratios {risk : CollateralParams} (valid : risk.validate = .ok ()) :
    0 ≤ risk.catalyticRatio.toRat ∧
      (0 ≤ risk.basicLoanToValue.toRat ∧ risk.basicLoanToValue.toRat ≤ risk.loanToValue.toRat ∧
        risk.loanToValue.toRat ≤ 1) ∧
      0 < risk.liquidationThreshold.toRat ∧ risk.liquidationThreshold.toRat ≤ 1 := by
  simp only [validate, bind_ok, requireNonNegative, require_ok, Decimal.le_iff_toRat,
    Decimal.lt_iff_toRat, Decimal.toRat_zero, Decimal.toRat_one] at valid
  obtain ⟨_, -, _, -, _, -, _, catalytic, _, -, _, shares, threshold⟩ := valid
  exact ⟨catalytic, shares, threshold⟩

/-- What rounding may add to the maximum loan-to-value: half of the last digit, divided by the
catalytic ratio, and six times the last digit where the quotient and the sum are rounded. -/
def roundingSlack (risk : CollateralParams) : ℚ :=
  if risk.catalyticRatio ≤ 0 then 0 else (1 / (2 * risk.catalyticRatio.toRat) + 6) / 10 ^ 28

theorem roundingSlack_nonneg {risk : CollateralParams} (valid : risk.validate = .ok ()) :
    0 ≤ risk.roundingSlack := by
  have catalytic := (validate_ratios valid).1
  unfold roundingSlack
  split
  next => exact le_rfl
  next => positivity

/-- A share of the spread, rounded, multiplied by no more than the ratio and divided by it again. -/
theorem boost_le {ratio spread product boost : Decimal} {cap : Decimal} (positive : 0 < cap.toRat)
    (nonneg : 0 ≤ ratio.toRat) (capped : ratio.toRat ≤ cap.toRat) (low : 0 ≤ spread.toRat)
    (high : spread.toRat ≤ 1) (multiplied : ratio.mul spread = .ok product)
    (divided : product.div cap = .ok boost) :
    boost.toRat ≤ spread.toRat + (1 / (2 * cap.toRat) + 4) / 10 ^ 28 := by
  have part : 0 ≤ ratio.toRat * spread.toRat := by positivity
  have whole : ratio.toRat * spread.toRat ≤ cap.toRat * spread.toRat := by gcongr
  have rounded : product.toRat
      ≤ ratio.toRat * spread.toRat + max (1 / 2) (ratio.toRat * spread.toRat) / 10 ^ 28 :=
    (Decimal.mul?_rounded (orOverflow_ok.mp multiplied)).le part
  have larger : max (1 / 2) (ratio.toRat * spread.toRat) ≤ 1 / 2 + ratio.toRat * spread.toRat :=
    max_le (by linarith) (by linarith)
  -- Dividing by the ratio magnifies the half digit, but to no more than one half.
  have quotient : product.toRat / cap.toRat
      ≤ spread.toRat + (1 / (2 * cap.toRat) + spread.toRat) / 10 ^ 28 := by
    have half : 1 / (2 * cap.toRat) * cap.toRat = 1 / 2 := by field_simp
    rw [div_le_iff₀ positive]
    linarith
  have small := Decimal.half_div_le positive
  have near := (Decimal.div_near divided).le
    (div_nonneg (Decimal.mul_nonneg multiplied nonneg low) positive.le)
  linarith

/-! ### The steps from the values to the loan-to-value -/

/-- What the maximum loan-to-value adds to the basic one. -/
def spread (risk : CollateralParams) : ℚ := risk.loanToValue.toRat - risk.basicLoanToValue.toRat

/-- The steps from a ratio of native value to collateral value to a loan-to-value. -/
structure Raises (risk : CollateralParams) (ratio spread product boost loanToValue : Decimal) :
    Prop where
  left : risk.loanToValue.sub? risk.basicLoanToValue = some spread
  multiplied : (ratio.min risk.catalyticRatio).mul? spread = some product
  divided : product.div? risk.catalyticRatio = some boost
  added : risk.basicLoanToValue.add? boost = some loanToValue

section Steps

variable {risk : CollateralParams}
  {collateralValue nativeValue ratio spread product boost loanToValue : Decimal}

/-- Without a catalytic ratio or collateral the basic loan-to-value is what is usable. -/
theorem availableLoanToValue_flat
    (flat : risk.catalyticRatio.toRat ≤ 0 ∨ collateralValue.toRat ≤ 0)
    (available : risk.availableLoanToValue collateralValue nativeValue = .ok loanToValue) :
    loanToValue = risk.basicLoanToValue := by
  rw [← Decimal.toRat_zero, ← Decimal.le_iff_toRat, ← Decimal.le_iff_toRat] at flat
  rw [availableLoanToValue, if_pos flat] at available
  exact (pure_ok.mp available).symm

theorem availableLoanToValue_raises (positive : 0 < risk.catalyticRatio.toRat)
    (worth : 0 < collateralValue.toRat)
    (available : risk.availableLoanToValue collateralValue nativeValue = .ok loanToValue) :
    ∃ ratio spread product boost, nativeValue.div? collateralValue = some ratio ∧
      risk.Raises ratio spread product boost loanToValue := by
  have raised : ¬(risk.catalyticRatio ≤ 0 ∨ collateralValue ≤ 0) := by
    rw [not_or, Decimal.le_iff_toRat, Decimal.le_iff_toRat, Decimal.toRat_zero]
    exact ⟨not_le.mpr positive, not_le.mpr worth⟩
  rw [availableLoanToValue, if_neg raised] at available
  simp only [bind_ok, Decimal.subTrusted_ok, Decimal.addTrusted_ok, Decimal.div, Decimal.mul,
    orOverflow_ok] at available
  obtain ⟨ratio, divided, spread, left, product, multiplied, boost, shared, added⟩ := available
  exact ⟨ratio, spread, product, boost, divided, left, multiplied, shared, added⟩

/-- The ratio that counts is not above the catalytic one. -/
theorem ratio_bounds (catalytic : 0 ≤ risk.catalyticRatio.toRat) (nonneg : 0 ≤ ratio.toRat) :
    0 ≤ (ratio.min risk.catalyticRatio).toRat ∧
      (ratio.min risk.catalyticRatio).toRat ≤ risk.catalyticRatio.toRat := by
  rw [Decimal.toRat_min]
  exact ⟨le_min nonneg catalytic, min_le_right _ _⟩

variable (valid : risk.validate = .ok ())
include valid

theorem spread_bounds : 0 ≤ risk.spread ∧ risk.spread ≤ 1 := by
  obtain ⟨-, ⟨basic, ordered, maximum⟩, -⟩ := validate_ratios valid
  rw [CollateralParams.spread]
  exact ⟨sub_nonneg.mpr ordered, by linarith⟩

theorem Raises.spread_eq (raises : risk.Raises ratio spread product boost loanToValue) :
    spread.toRat = risk.spread := by
  obtain ⟨-, ⟨basic, ordered, maximum⟩, -⟩ := validate_ratios valid
  exact Decimal.sub?_toRat basic ordered maximum raises.left

/-- The usable loan-to-value is not negative, and at most the maximum up to rounding. -/
theorem availableLoanToValue_bounds (nonneg : 0 ≤ nativeValue.toRat)
    (available : risk.availableLoanToValue collateralValue nativeValue = .ok loanToValue) :
    0 ≤ loanToValue.toRat ∧
      loanToValue.toRat ≤ risk.loanToValue.toRat + risk.roundingSlack := by
  obtain ⟨catalytic, ⟨basic, ordered, maximum⟩, -, -⟩ := validate_ratios valid
  by_cases flat : risk.catalyticRatio.toRat ≤ 0 ∨ collateralValue.toRat ≤ 0
  · rw [availableLoanToValue_flat flat available]
    have slack := roundingSlack_nonneg valid
    exact ⟨basic, by linarith⟩
  · rw [not_or, not_le, not_le] at flat
    obtain ⟨positive, worth⟩ := flat
    obtain ⟨ratio, spread, product, boost, divided, raises⟩ :=
      availableLoanToValue_raises positive worth available
    obtain ⟨ratioNonneg, capped⟩ :=
      ratio_bounds catalytic (Decimal.div?_nonneg divided nonneg worth.le)
    obtain ⟨low, high⟩ := spread_bounds valid
    have spreadIs := raises.spread_eq valid
    rw [← spreadIs] at low high
    have boostNonneg : 0 ≤ boost.toRat := Decimal.div?_nonneg raises.divided
      (Decimal.mul?_nonneg raises.multiplied ratioNonneg low) catalytic
    have boostLe := boost_le positive ratioNonneg capped low high
      (orOverflow_ok.mpr raises.multiplied) (orOverflow_ok.mpr raises.divided)
    refine ⟨Decimal.add?_nonneg raises.added basic boostNonneg, ?_⟩
    have rounded := (Decimal.add?_rounded raises.added).le (add_nonneg basic boostNonneg)
    have small := Decimal.half_div_le positive
    rw [CollateralParams.spread] at spreadIs
    have atMost : max (1 / 2) (risk.basicLoanToValue.toRat + boost.toRat) ≤ 2 :=
      max_le (by norm_num) (by linarith)
    rw [roundingSlack, if_neg (by rwa [Decimal.le_iff_toRat, Decimal.toRat_zero, not_le])]
    linarith

end Steps

end CollateralParams

end Stablecoin
