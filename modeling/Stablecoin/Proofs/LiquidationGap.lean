import Stablecoin.Proofs.DebtLimit

/-!
# Between the debt limit and the liquidation value

A position is accepted as long as its debt is within its limit, and it can be liquidated once its
debt has reached the liquidation value. Both are shares of the collateral value. If the liquidation
threshold exceeds the usable loan-to-value by two units of the last digit or more, nothing that has
just been accepted can be liquidated in the same block and at the same prices: the rounding of the
two products does not bridge the gap. Otherwise it may, and a threshold below the loan-to-value is
not refused.
-/
namespace Stablecoin

/-- Of two products with shares that are two last digits apart, rounding does not make the smaller
reach the larger. -/
theorem Decimal.mul_lt_mul_of_gap {value low high lowValue highValue : Decimal}
    (nonneg : 0 ≤ value.toRat) (lowNonneg : 0 ≤ low.toRat) (share : high.toRat ≤ 1)
    (gap : low.toRat + 2 / 10 ^ 28 ≤ high.toRat) (multiplied : value.mul low = .ok lowValue)
    (multiplied' : value.mul high = .ok highValue) (one : 1 ≤ lowValue.toRat) :
    lowValue.toRat < highValue.toRat := by
  have lower : 0 ≤ value.toRat * low.toRat := by positivity
  have apart : value.toRat * low.toRat + 2 / 10 ^ 28 * value.toRat
      ≤ value.toRat * high.toRat := by
    rw [mul_comm (2 / 10 ^ 28), ← mul_add]
    gcongr
  have atMost : value.toRat * high.toRat ≤ value.toRat := mul_le_of_le_one_right nonneg share
  have above := (mul?_rounded (orOverflow_ok.mp multiplied)).le lower
  have below := (mul?_rounded (orOverflow_ok.mp multiplied')).ge (by linarith)
  -- The products are above a half, where the error is relative.
  have half : 1 / 2 ≤ value.toRat * low.toRat := by
    by_contra small
    rw [max_eq_left (not_le.mp small).le] at above
    linarith
  rw [max_eq_right half] at above
  rw [max_eq_right (by linarith)] at below
  linarith

namespace PositionRecords

/-- No time has passed since the last settlement, so there is nothing to settle. -/
theorem settle_of_current {r : PositionRecords} {height : Height}
    (current : blocksBetween r.position.settledAt height = 0) (rate : Decimal)
    (blocksPerYear : Height) : r.settle rate height blocksPerYear = .ok r := by
  unfold settle
  dsimp only
  rw [if_pos current]
  rfl

end PositionRecords

namespace Engine

variable {e : Engine} {sender : Principal} {request : Request} {denom : Denom}
  {risk : CollateralParams}

/-! ### Refusals -/

theorem transact_of_refused {failure : Failure} (planned : e.plan sender request = .error failure) :
    (e.transact sender request).result = .error failure := by
  simp [transact, planned, refused]

/-- A liquidation is paid in stable units. -/
theorem planLiquidate_wrongDenom {r : LiquidateRequest} (other : r.repayInMax.denom ≠ stableDenom) :
    e.planLiquidate sender r
      = .error (.rejected (.wrongDenom stableDenom r.repayInMax.denom)) := by
  simp [planLiquidate, afterLiquidate, Coin.requireDenom, require, other, reject, bind, Except.bind]

/-- Whatever is asked for, a position that cannot be liquidated is not. -/
theorem planLiquidate_refused {r : LiquidateRequest} {price : Decimal} {settled : PositionRecords}
    {failure : Failure} (stable : r.repayInMax.denom = stableDenom)
    (known : e.collateralParams r.collateral.denom = .ok risk)
    (priced : e.price r.collateral.denom = .ok price)
    (loaded : e.settledPosition r.debtor risk false = .ok settled)
    (refused : requireLiquidatable settled.position risk price = .error failure) :
    e.planLiquidate sender r = .error failure := by
  simp [planLiquidate, afterLiquidate, Coin.requireDenom, require, stable, known, priced, loaded,
    refused, bind, Except.bind, pure, Except.pure]

/-- Debt below the liquidation value keeps a position from being liquidated. -/
theorem requireLiquidatable_refused {position : Position} {price value liquidationValue : Decimal}
    (valued : position.collateral.worth price = .ok value)
    (shared : value.mul risk.liquidationThreshold = .ok liquidationValue)
    (below : (position.stableDebt.amount : ℚ) < liquidationValue.toRat) :
    ∃ debtText valueText, requireLiquidatable position risk price
      = .error (.rejected (.notLiquidatable debtText valueText)) := by
  obtain ⟨debt, owed⟩ : ∃ debt, position.stableDebt.toDecimal = .ok debt :=
    ⟨_, Decimal.ofAmount_of_lt (Decimal.lt_coefficientBound_of_le below.le)⟩
  have short : ¬ liquidationValue ≤ debt := by
    rwa [Decimal.le_iff_toRat, Decimal.ofAmount_toRat owed, not_le]
  rw [← Coin.worth_pegTarget] at owed
  refine ⟨debt.text, liquidationValue.text, ?_⟩
  simp [requireLiquidatable, valued, shared, owed, short, require, reject, bind, Except.bind]

/-! ### Accepted positions -/

/-- The engine after an accepted request finds the accepted position, and nothing to settle. -/
theorem Accepts.settledPosition {left : PositionRecords} {limit : DebtLimit}
    (accepts : e.Accepts sender denom risk left limit) (named : e.store.Named) (ledger : Ledger)
    (event : Event) :
    let after := { e with ledger, store := e.store.update (.position left) }.record event
    ∃ settled, after.settledPosition sender risk false = .ok settled ∧
      settled.position = left.position := by
  intro after
  have asset : risk.denom = denom :=
    named.collateralParams denom risk (collateralParams_ok accepts.known).1
  obtain ⟨pool, pooled⟩ : ∃ pool, after.store.collateralPools.get? denom = some pool :=
    Store.pool_setCollateralPool left.pool accepts.pooled
  have total : after.store.collateralTotal = some left.total := rfl
  have stored : after.store.positions.get? (sender, denom) = some left.position := accepts.stored
  have loaded : after.position sender risk.denom false = .ok ⟨left.total, pool, left.position⟩ := by
    simp [Engine.position, asset, pooled, total, stored, pure, Except.pure]
  have current := PositionRecords.settle_of_current
    (r := ⟨left.total, pool, left.position⟩) accepts.settled risk.interestRate
    e.store.params.blocksPerYear
  exact ⟨_, bind_ok.mpr ⟨_, loaded, current⟩, rfl⟩

/-- Debt within the limit is below the liquidation value, if the threshold is two last digits above
the usable loan-to-value. -/
theorem Accepts.not_liquidatable {left : PositionRecords} {limit : DebtLimit}
    (valid : risk.validate = .ok ()) (accepts : e.Accepts sender denom risk left limit)
    (indebted : 0 < left.position.stableDebt.amount)
    (gap : limit.loanToValue.toRat + 2 / 10 ^ 28 ≤ risk.liquidationThreshold.toRat) :
    ∃ price, e.price denom = .ok price ∧ ∃ debtText valueText,
      requireLiquidatable left.position risk price
        = .error (.rejected (.notLiquidatable debtText valueText)) := by
  obtain ⟨-, -, positive, share⟩ := CollateralParams.validate_ratios valid
  obtain ⟨low, -, -⟩ := debtLimit_bounds valid accepts.limited
  obtain ⟨price, _, value, _, priced, -, valued, -, cases⟩ := debtLimit_ok accepts.limited
  have one : 1 ≤ limit.maxDebtValue.toRat := by
    have unit : (1 : ℚ) ≤ left.position.stableDebt.amount := by exact_mod_cast indebted
    exact unit.trans accepts.covered
  refine ⟨price, accepts.asset ▸ priced, ?_⟩
  obtain rfl | ⟨worth, -, multiplied⟩ := cases
  · -- A limit of nothing admits no debt.
    rw [Decimal.toRat_zero] at one
    linarith
  · obtain ⟨liquidationValue, shared, -⟩ := Decimal.mul?_share worth.le positive.le share
    have multiplied' : value.mul risk.liquidationThreshold = .ok liquidationValue :=
      orOverflow_ok.mpr shared
    have apart := Decimal.mul_lt_mul_of_gap worth.le low share gap multiplied multiplied' one
    exact requireLiquidatable_refused valued multiplied' (accepts.covered.trans_lt apart)

/-- After a loan or a withdrawal under valid risk parameters, the position left behind cannot be
liquidated in the same block and at the same prices, provided that it has debt and that the
liquidation threshold exceeds the loan-to-value of its limit by two last digits or more. Whoever
tries is told so, or that a liquidation is paid in stable units. -/
theorem transact_notLiquidatable {response : Response} (named : e.store.Named)
    (registered : e.store.collateralParams.get? denom = some risk)
    (valid : risk.validate = .ok ()) (limitedBy : request.limitedBy = some denom)
    (returned : (e.transact sender request).result = .ok response) :
    let after := (e.transact sender request).engine
    ∃ left limit, after.store.positions.get? (sender, denom) = some left ∧
      e.debtLimit left risk = .ok limit ∧
      (0 < left.stableDebt.amount →
        limit.loanToValue.toRat + 2 / 10 ^ 28 ≤ risk.liquidationThreshold.toRat →
        ∀ (liquidator : Principal) (r : LiquidateRequest), r.debtor = sender →
          r.collateral.denom = denom →
          (r.repayInMax.denom = stableDenom → ∃ debtText valueText,
            (after.transact liquidator (.liquidate r)).result
              = .error (.rejected (.notLiquidatable debtText valueText))) ∧
          (r.repayInMax.denom ≠ stableDenom →
            (after.transact liquidator (.liquidate r)).result
              = .error (.rejected (.wrongDenom stableDenom r.repayInMax.denom)))) := by
  intro after
  obtain ⟨left, limit, ledger, event, accepts, carried⟩ :=
    transact_accepts named registered valid limitedBy returned
  obtain ⟨settled, loaded, same⟩ := accepts.settledPosition named ledger event
  rw [← carried] at loaded
  have stored : after.store.positions.get? (sender, denom) = some left.position := by
    change (e.transact sender request).engine.store.positions.get? (sender, denom) = _
    rw [carried]
    exact accepts.stored
  refine ⟨left.position, limit, stored, accepts.limited, ?_⟩
  rintro indebted gap liquidator r rfl rfl
  obtain ⟨price, priced, debtText, valueText, refused⟩ :=
    accepts.not_liquidatable valid indebted gap
  constructor
  · intro stable
    refine ⟨debtText, valueText, transact_of_refused ?_⟩
    -- Parameters and prices are still what they were.
    have known : after.collateralParams r.collateral.denom = .ok risk := by
      change (e.transact r.debtor request).engine.collateralParams _ = _
      rw [carried]
      exact accepts.known
    have priced' : after.price r.collateral.denom = .ok price := by
      change (e.transact r.debtor request).engine.price _ = _
      rw [carried]
      exact priced
    exact planLiquidate_refused stable known priced' loaded (same ▸ refused)
  · intro other
    exact transact_of_refused (planLiquidate_wrongDenom other)

/-- A loan of 602 against ether worth 1000 cannot be liquidated at a threshold of 0.8. -/
theorem transact_notLiquidatable_lendingDesk :
    let borrower : Principal := ⟨[1], by decide⟩
    let liquidator : Principal := ⟨[2], by decide⟩
    let risk := etherRisk (percent 80) (percent 70) (percent 60) (percent 5)
    let e := lendingDesk borrower liquidator risk 1 1000
    let request := .borrow ⟨none, "ether", ⟨stableDenom, 602⟩⟩
    e.store.Named ∧ e.store.collateralParams.get? "ether" = some risk ∧
      risk.validate = .ok () ∧ request.limitedBy = some "ether" ∧
      (e.transact borrower request).result = .ok (.borrow ⟨⟨stableDenom, 0⟩⟩) ∧
      (e.transact borrower request).engine.store.positions.get? (borrower, "ether") = some
        ⟨borrower, ⟨"ether", 1000⟩, ⟨stableDenom, 602⟩, ⟨nativeDenom, 1⟩, ⟨stableDenom, 0⟩, 0⟩ ∧
      ∃ debtText valueText,
        ((e.transact borrower request).engine.transact liquidator
            (.liquidate ⟨none, borrower, ⟨"ether", 1⟩, ⟨stableDenom, 1000⟩⟩)).result
          = .error (.rejected (.notLiquidatable debtText valueText)) := by
  intro borrower liquidator risk e request
  have named : e.store.Named := (run_sound (fresh_sound _ _) _).keyed.named
  have registered : e.store.collateralParams.get? "ether" = some risk := by decide +kernel
  have valid : risk.validate = .ok () := by decide +kernel
  have returned : (e.transact borrower request).result = .ok (.borrow ⟨⟨stableDenom, 0⟩⟩) := by
    decide +kernel
  have indebted : (e.transact borrower request).engine.store.positions.get? (borrower, "ether")
      = some ⟨borrower, ⟨"ether", 1000⟩, ⟨stableDenom, 602⟩, ⟨nativeDenom, 1⟩, ⟨stableDenom, 0⟩,
        0⟩ := by
    decide +kernel
  obtain ⟨left, limit, stored, limited, safe⟩ :=
    transact_notLiquidatable named registered valid rfl returned
  cases stored.symm.trans indebted
  have gap : limit.loanToValue.toRat + 2 / 10 ^ 28 ≤ risk.liquidationThreshold.toRat := by
    have threshold : risk.liquidationThreshold.toRat = 4 / 5 := by decide +kernel
    have maximum : risk.loanToValue.toRat = 7 / 10 := by decide +kernel
    have catalytic : risk.catalyticRatio.toRat = 1 / 20 := by decide +kernel
    have most := (debtLimit_bounds valid limited).2.1
    rw [CollateralParams.roundingSlack, if_neg (by decide), maximum, catalytic] at most
    rw [threshold]
    linarith
  exact ⟨named, registered, valid, rfl, returned, indebted,
    (safe (by decide) gap liquidator ⟨none, borrower, ⟨"ether", 1⟩, ⟨stableDenom, 1000⟩⟩ rfl rfl).1
      rfl⟩

/-- A threshold below the loan-to-value is not refused, and then a loan is liquidated as soon as it
is made. Nor is a gap of one last digit enough: at a price with many digits both products are
rounded to the same number. -/
theorem narrowGap_liquidates :
    let borrower : Principal := ⟨[1], by decide⟩
    let liquidator : Principal := ⟨[2], by decide⟩
    let inverted := etherRisk (percent 50) (percent 80) (percent 80) 0
    let narrow :=
      etherRisk { coefficient := 9500000000000000000000000001, scale := 28 } (percent 95)
        (percent 95) 0
    let first := (lendingDesk borrower liquidator inverted 1 1000).transact borrower
      (.borrow ⟨none, "ether", ⟨stableDenom, 700⟩⟩)
    let second := (lendingDesk borrower liquidator narrow
      { coefficient := 9473684210526315789473684210, scale := 27 } 1).transact borrower
        (.borrow ⟨none, "ether", ⟨stableDenom, 9⟩⟩)
    (inverted.validate = .ok () ∧ first.result = .ok (.borrow ⟨⟨stableDenom, 0⟩⟩) ∧
        (first.engine.transact liquidator
            (.liquidate ⟨none, borrower, ⟨"ether", 100⟩, ⟨stableDenom, 1000⟩⟩)).result
          = .ok (.liquidate ⟨⟨stableDenom, 90⟩, ⟨"ether", 99⟩, ⟨"ether", 1⟩⟩)) ∧
      (narrow.validate = .ok () ∧ second.result = .ok (.borrow ⟨⟨stableDenom, 0⟩⟩) ∧
        (second.engine.transact liquidator
            (.liquidate ⟨none, borrower, ⟨"ether", 1⟩, ⟨stableDenom, 1000⟩⟩)).result
          = .ok (.liquidate ⟨⟨stableDenom, 8⟩, ⟨"ether", 1⟩, ⟨"ether", 0⟩⟩)) := by
  decide +kernel

end Engine

end Stablecoin
