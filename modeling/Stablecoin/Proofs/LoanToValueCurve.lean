import Stablecoin.Proofs.DebtLimit
import Stablecoin.Proofs.Decimal.Exact
import Stablecoin.Proofs.Decimal.Order
import Stablecoin.Proofs.LoanToValue

/-!
# The curve of the usable loan-to-value

Between ratios of few digits the roundings do not show at the ends of the curve: the catalytic ratio
times the spread has a decimal of its own, so the product at the cap is exact and the division that
follows returns the spread. And they do not break its order: the quotient of the two values keeps
the order of different values, and what follows it, down to the division by the cap, keeps the order
of all values.
-/
namespace Stablecoin.CollateralParams

variable {risk : CollateralParams}

/-- Ratios with twelve digits at most, and a catalytic ratio below a thousand. -/
structure FewDigits (risk : CollateralParams) : Prop where
  basicLoanToValue : risk.basicLoanToValue.DigitsWithin 12
  loanToValue : risk.loanToValue.DigitsWithin 12
  catalyticRatio : risk.catalyticRatio.DigitsWithin 12
  moderate : risk.catalyticRatio.toRat < 1000

/-! ### From the ratio to the loan-to-value -/

section Raises

variable {ratio ratio' spread spread' product product' boost boost' loanToValue
    loanToValue' : Decimal}
  (valid : risk.validate = .ok ()) (few : risk.FewDigits)
include valid few

/-- The catalytic ratio times the spread has no more digits than a decimal can hold. -/
theorem exists_full_product :
    ∃ full : Decimal, full.toRat = risk.catalyticRatio.toRat * risk.spread := by
  obtain ⟨catalytic, ⟨basic, ordered, maximum⟩, -⟩ := validate_ratios valid
  obtain ⟨m, high⟩ := few.loanToValue.natCast (basic.trans ordered)
  obtain ⟨n, low⟩ := few.basicLoanToValue.natCast basic
  obtain ⟨c, factor⟩ := few.catalyticRatio.natCast catalytic
  have fewer : n ≤ m := by
    rw [high, low, div_le_div_iff_of_pos_right (by positivity)] at ordered
    exact_mod_cast ordered
  have most : m ≤ 10 ^ 12 := by
    rw [high, div_le_one (by positivity)] at maximum
    exact_mod_cast maximum
  have moderate : c < 10 ^ 15 := by
    have bound := few.moderate
    rw [factor, div_lt_iff₀ (by positivity)] at bound
    norm_num at bound
    exact_mod_cast bound
  have size : c * (m - n) < Decimal.coefficientBound := by
    have product := Nat.mul_le_mul moderate.le ((Nat.sub_le m n).trans most)
    simp only [Decimal.coefficientBound]
    omega
  refine ⟨⟨(c * (m - n) : Nat), 24, size, by decide⟩, ?_⟩
  rw [Decimal.toRat_eq, CollateralParams.spread, high, low, factor, Int.cast_natCast, Nat.cast_mul,
    Nat.cast_sub fewer]
  ring

namespace Raises

variable (positive : 0 < risk.catalyticRatio.toRat)
  (raises : risk.Raises ratio spread product boost loanToValue) (nonneg : 0 ≤ ratio.toRat)
include positive raises nonneg

theorem product_bounds :
    0 ≤ product.toRat ∧ product.toRat ≤ risk.catalyticRatio.toRat * risk.spread := by
  obtain ⟨full, same⟩ := exists_full_product valid few
  obtain ⟨low, high⟩ := ratio_bounds positive.le nonneg
  have spreads := raises.spread_eq valid
  obtain ⟨wide, -⟩ := spread_bounds valid
  refine ⟨Decimal.mul?_nonneg raises.multiplied low (wide.trans_eq spreads.symm), ?_⟩
  rw [← same]
  refine (Decimal.mul?_faithful raises.multiplied).le full ?_
  rw [spreads, same]
  gcongr

theorem boost_bounds : 0 ≤ boost.toRat ∧ boost.toRat ≤ risk.spread := by
  obtain ⟨low, high⟩ := raises.product_bounds valid few positive nonneg
  refine ⟨Decimal.div?_nonneg raises.divided low positive.le, ?_⟩
  rw [← raises.spread_eq valid] at high ⊢
  refine (Decimal.div?_faithful raises.divided).le spread ?_
  rw [div_le_iff₀ positive]
  linarith

/-- The boost is added exactly. -/
theorem loanToValue_eq : loanToValue.toRat = risk.basicLoanToValue.toRat + boost.toRat := by
  obtain ⟨-, ⟨basic, -, maximum⟩, -⟩ := validate_ratios valid
  obtain ⟨low, high⟩ := raises.boost_bounds valid few positive nonneg
  rw [CollateralParams.spread] at high
  exact Decimal.add?_share (add_nonneg basic low) (by linarith) raises.added

/-- The loan-to-value lies between the basic and the maximum one. -/
theorem bounds : risk.basicLoanToValue.toRat ≤ loanToValue.toRat ∧
    loanToValue.toRat ≤ risk.loanToValue.toRat := by
  obtain ⟨low, high⟩ := raises.boost_bounds valid few positive nonneg
  rw [raises.loanToValue_eq valid few positive nonneg]
  rw [CollateralParams.spread] at high
  exact ⟨by linarith, by linarith⟩

/-- Nothing is added for a ratio of zero. -/
theorem of_zero (zero : ratio.toRat = 0) :
    loanToValue.toRat = risk.basicLoanToValue.toRat := by
  have none : (ratio.min risk.catalyticRatio).toRat = 0 := by
    rw [Decimal.toRat_min, zero, min_eq_left positive.le]
  have product := Decimal.mul?_faithful raises.multiplied
  rw [none, zero_mul, ← Decimal.toRat_zero] at product
  have boost := Decimal.div?_faithful raises.divided
  rw [product.eq_toRat, Decimal.toRat_zero, zero_div, ← Decimal.toRat_zero] at boost
  rw [raises.loanToValue_eq valid few positive nonneg, boost.eq_toRat, Decimal.toRat_zero, add_zero]

/-- The whole spread is added from the catalytic ratio on. -/
theorem of_full (full : risk.catalyticRatio.toRat ≤ ratio.toRat) :
    loanToValue.toRat = risk.loanToValue.toRat := by
  obtain ⟨exact', same⟩ := exists_full_product valid few
  have capped : (ratio.min risk.catalyticRatio).toRat = risk.catalyticRatio.toRat := by
    rw [Decimal.toRat_min, min_eq_right full]
  have spreads := raises.spread_eq valid
  have product := Decimal.mul?_faithful raises.multiplied
  rw [capped, spreads, ← same] at product
  have boost := Decimal.div?_faithful raises.divided
  rw [product.eq_toRat, same, mul_div_cancel_left₀ _ positive.ne', ← spreads] at boost
  rw [raises.loanToValue_eq valid few positive nonneg, boost.eq_toRat, spreads,
    CollateralParams.spread, add_sub_cancel]

/-- A larger ratio does not lower the loan-to-value. -/
theorem mono (raises' : risk.Raises ratio' spread' product' boost' loanToValue')
    (below : ratio.toRat ≤ ratio'.toRat) : loanToValue.toRat ≤ loanToValue'.toRat := by
  have nonneg' := nonneg.trans below
  have spreads := raises.spread_eq valid
  obtain ⟨wide, narrow⟩ := spread_bounds valid
  have capped : (ratio.min risk.catalyticRatio).toRat ≤ (ratio'.min risk.catalyticRatio).toRat := by
    rw [Decimal.toRat_min, Decimal.toRat_min]
    exact min_le_min_right _ below
  have same : spread = spread' := Option.some.inj (raises.left.symm.trans raises'.left)
  subst same
  have products := Decimal.mul?_mono (ratio_bounds positive.le nonneg).1 capped
    (wide.trans_eq spreads.symm) raises.multiplied raises'.multiplied
  have low := (raises.product_bounds valid few positive nonneg).1
  have high := (raises'.product_bounds valid few positive nonneg').2
  -- The larger product is a share of the catalytic ratio.
  have share : product'.toRat ≤ risk.catalyticRatio.toRat :=
    high.trans (mul_le_of_le_one_right positive.le narrow)
  rw [raises.loanToValue_eq valid few positive nonneg,
    raises'.loanToValue_eq valid few positive nonneg']
  have boosts :=
    Decimal.div?_mono_of_small raises.divided raises'.divided low positive products share
  linarith

end Raises

end Raises

/-! ### The curve -/

variable {collateralValue nativeValue loanToValue : Decimal}

/-- The usable loan-to-value lies between the basic and the maximum one. It does not decrease when
the native value grows and does not increase when the collateral value does, it is the basic one
without native value, and the maximum one exactly as soon as the native value reaches the catalytic
ratio of the collateral value. -/
theorem availableLoanToValue_curve (valid : risk.validate = .ok ()) (few : risk.FewDigits)
    (worth : 0 < collateralValue) (nonneg : 0 ≤ nativeValue)
    (available : risk.availableLoanToValue collateralValue nativeValue = .ok loanToValue) :
    (risk.basicLoanToValue ≤ loanToValue ∧ loanToValue ≤ risk.loanToValue) ∧
      (∀ more raised, nativeValue < more →
        risk.availableLoanToValue collateralValue more = .ok raised → loanToValue ≤ raised) ∧
      (∀ more lowered, collateralValue < more →
        risk.availableLoanToValue more nativeValue = .ok lowered → lowered ≤ loanToValue) ∧
      (nativeValue.toRat = 0 → loanToValue.toRat = risk.basicLoanToValue.toRat) ∧
      (0 < risk.catalyticRatio →
        risk.catalyticRatio.toRat * collateralValue.toRat ≤ nativeValue.toRat →
        loanToValue.toRat = risk.loanToValue.toRat) := by
  simp only [Decimal.le_iff_toRat, Decimal.lt_iff_toRat, Decimal.toRat_zero] at worth nonneg ⊢
  rcases le_or_gt risk.catalyticRatio.toRat 0 with flat | positive
  · obtain ⟨-, ⟨-, ordered, -⟩, -⟩ := validate_ratios valid
    obtain rfl := availableLoanToValue_flat (.inl flat) available
    refine ⟨⟨le_rfl, ordered⟩, fun more raised _ returned => ?_, fun more lowered _ returned => ?_,
      fun _ => rfl, fun positive => absurd positive flat.not_gt⟩
    · rw [availableLoanToValue_flat (.inl flat) returned]
    · rw [availableLoanToValue_flat (.inl flat) returned]
  · obtain ⟨ratio, spread, product, boost, divided, raises⟩ :=
      availableLoanToValue_raises positive worth available
    have ratio_nonneg := Decimal.div?_nonneg divided nonneg worth.le
    refine ⟨raises.bounds valid few positive ratio_nonneg, fun more raised below returned => ?_,
      fun more lowered below returned => ?_, fun none => ?_, fun _ reached => ?_⟩
    · obtain ⟨_, _, _, _, divided', raises'⟩ := availableLoanToValue_raises positive worth returned
      exact raises.mono valid few positive ratio_nonneg raises'
        (Decimal.div?_mono_left divided divided' nonneg worth (.inr below))
    · have worth' := worth.trans below
      obtain ⟨_, _, _, _, divided', raises'⟩ := availableLoanToValue_raises positive worth' returned
      exact raises'.mono valid few positive (Decimal.div?_nonneg divided' nonneg worth'.le) raises
        (Decimal.div?_mono_right divided divided' nonneg worth below)
    · refine raises.of_zero valid few positive ratio_nonneg ?_
      rw [Decimal.div?_of_isZero divided (Decimal.isZero_iff.mpr none), Decimal.toRat_zero]
    · exact raises.of_full valid few positive ratio_nonneg
        ((Decimal.div?_faithful divided).ge _ ((le_div_iff₀ worth).mpr reached))

/-- From 0.6 up to 0.7 at a catalytic ratio of 0.05: collateral worth 3000 reaches two thirds with
native token worth 100, no more than the 0.7 with 150 and no less than the 0.65 that collateral worth
4000 has. -/
theorem availableLoanToValue_curve_etherRisk :
    let risk := Engine.etherRisk (percent 80) (percent 70) (percent 60) (percent 5)
    let twoThirds : Decimal := { coefficient := 666666666666666666666666666, scale := 27 }
    let saturated : Decimal := { coefficient := 70, scale := 2 }
    let lower : Decimal := { coefficient := 650, scale := 3 }
    risk.validate = .ok () ∧ risk.FewDigits ∧
      risk.availableLoanToValue (.ofSmall 3000 0) (.ofSmall 100 0) = .ok twoThirds ∧
      risk.availableLoanToValue (.ofSmall 3000 0) (.ofSmall 150 0) = .ok saturated ∧
      risk.availableLoanToValue (.ofSmall 4000 0) (.ofSmall 100 0) = .ok lower ∧
      risk.basicLoanToValue ≤ twoThirds ∧ twoThirds ≤ saturated ∧ lower ≤ twoThirds ∧
      saturated.toRat = risk.loanToValue.toRat := by
  intro risk twoThirds saturated lower
  have valid : risk.validate = .ok () := by decide +kernel
  have few : risk.FewDigits :=
    ⟨by decide +kernel, by decide +kernel, by decide +kernel, by decide +kernel⟩
  have raised :
      risk.availableLoanToValue (.ofSmall 3000 0) (.ofSmall 100 0) = .ok twoThirds := by
    decide +kernel
  have full : risk.availableLoanToValue (.ofSmall 3000 0) (.ofSmall 150 0) = .ok saturated := by
    decide +kernel
  have lowered : risk.availableLoanToValue (.ofSmall 4000 0) (.ofSmall 100 0) = .ok lower := by
    decide +kernel
  obtain ⟨bounds, more, less, -, -⟩ :=
    availableLoanToValue_curve valid few (by decide) (by decide) raised
  obtain ⟨-, -, -, -, whole⟩ := availableLoanToValue_curve valid few (by decide) (by decide) full
  exact ⟨valid, few, raised, full, lowered, bounds.1, more _ _ (by decide) full,
    less _ _ (by decide) lowered, whole (by decide) (by decide +kernel)⟩

end Stablecoin.CollateralParams
