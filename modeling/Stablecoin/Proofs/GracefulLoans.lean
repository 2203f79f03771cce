import Stablecoin.Engine.CollateralPlan
import Stablecoin.Proofs.LoanToValue
import Stablecoin.Proofs.RecordChange
import Stablecoin.Proofs.Validated

/-!
# How loans fail

Deposits, withdrawals, loans, repayments and liquidations are graceful in an engine whose parameters
have passed validation, as long as the debt of each position is covered by its pool and the total;
where it is not, a negative amount has to be excused.
-/
namespace Stablecoin

/-- The interest is part of the debt, and the debt is part of the pool's and of the total. -/
structure PositionRecords.DebtCovered (r : PositionRecords) : Prop where
  interest : r.position.interest.amount ≤ r.position.stableDebt.amount
  pool : r.position.stableDebt.amount ≤ r.pool.stableDebt.amount
  total : r.position.stableDebt.amount ≤ r.total.stableDebt.amount

/-- The debt of every stored position is covered. -/
def Store.DebtsCovered (s : Store) : Prop :=
  ∀ owner denom total pool position, s.collateralTotal = some total →
    s.collateralPools.get? denom = some pool → s.positions.get? (owner, denom) = some position →
    PositionRecords.DebtCovered ⟨total, pool, position⟩

variable {excused : Failure → Prop}

/-! ### Interest -/

theorem accruedInterest_graceful (principal : Coin) {rate : Decimal} (nonneg : 0 ≤ rate.toRat)
    (period : Nat) (blocksPerYear : Height) :
    Graceful excused (fun _ => True) (accruedInterest principal rate period blocksPerYear) := by
  refine (Decimal.ofAmount_graceful _).bind fun amount counted => ?_
  refine (Decimal.mul_graceful (counted ▸ Nat.cast_nonneg _) nonneg).bind fun yearly worth => ?_
  refine (Decimal.ofAmount_graceful _).bind fun blocks blocksCounted => ?_
  refine (Decimal.mul_graceful worth (blocksCounted ▸ Nat.cast_nonneg _)).bind fun _ accrued => ?_
  refine (Decimal.ofAmount_graceful _).bind fun year yearCounted => ?_
  refine (Decimal.div_graceful accrued (yearCounted ▸ Nat.cast_nonneg _)).bind fun _ share => ?_
  exact (Decimal.charge_graceful share).weaken

namespace PositionRecords

variable {r after : PositionRecords}

/-- Interest adds to the debt of all three levels alike. -/
theorem Changed.debtCovered {interest : Nat}
    (changed : r.Changed { debt := interest, interest := interest } after)
    (covered : r.DebtCovered) : after.DebtCovered := by
  obtain ⟨within, pool, total⟩ := covered
  have debt := changed.debt
  have poolDebt := changed.poolDebt
  have totalDebt := changed.totalDebt
  have accrued := changed.interest
  dsimp only at debt poolDebt totalDebt accrued
  constructor <;> omega

theorem settle_graceful {rate : Decimal} {height blocksPerYear : Height}
    (nonneg : 0 ≤ rate.toRat) (blocks : blocksPerYear ≠ 0)
    (covered : r.DebtCovered ∨ ExcusesShort excused) :
    Graceful excused (fun settled => settled.DebtCovered ∨ ExcusesShort excused)
      (r.settle rate height blocksPerYear) := by
  have graceful : Graceful excused (fun _ => True) (r.settle rate height blocksPerYear) := by
    unfold settle
    dsimp only
    split
    next => exact .pure trivial
    next =>
      refine (require_of_holds blocks).bind fun _ _ => ?_
      refine (Coin.sub_graceful (covered.imp_left (·.interest))).bind fun principal _ => ?_
      refine (accruedInterest_graceful principal nonneg _ _).bind fun interest _ => ?_
      refine (Coin.add_graceful _).bind fun _ _ => ?_
      refine (Coin.add_graceful _).bind fun _ _ => ?_
      refine (Coin.add_graceful _).bind fun _ _ => ?_
      exact (Coin.add_graceful _).bind fun _ _ => .pure trivial
  refine graceful.returned.mono fun settled returned => ?_
  obtain ⟨interest, changed⟩ := settle_changed returned.1
  exact covered.imp_left changed.debtCovered

theorem deposit_graceful (collateral native : Coin) :
    Graceful excused (fun _ => True) (r.deposit collateral native) := by
  refine (Coin.add_graceful _).bind fun _ _ => ?_
  refine (Coin.add_graceful _).bind fun _ _ => ?_
  refine (Coin.add_graceful _).bind fun _ _ => ?_
  refine (Coin.add_graceful _).bind fun _ _ => ?_
  exact (Coin.add_graceful _).bind fun _ _ => .pure trivial

theorem redeem_graceful (collateral native : Coin) :
    Graceful excused (fun _ => True) (r.redeem collateral native) := by
  refine (Coin.withdraw_graceful _).bind fun _ _ => ?_
  refine (Coin.withdraw_graceful _).bind fun _ _ => ?_
  refine (Coin.withdraw_graceful _).bind fun _ _ => ?_
  refine (Coin.withdraw_graceful _).bind fun _ _ => ?_
  exact (Coin.withdraw_graceful _).bind fun _ _ => .pure trivial

theorem borrow_graceful (amount : Nat) : Graceful excused (fun _ => True) (r.borrow amount) := by
  refine (Coin.add_graceful _).bind fun _ _ => ?_
  refine (Coin.add_graceful _).bind fun _ _ => ?_
  exact (Coin.add_graceful _).bind fun _ _ => .pure trivial

end PositionRecords

/-! ### Limits -/

namespace CollateralParams

variable {params : CollateralParams}

theorem requireDebtCeiling_graceful (debt : Coin) :
    Graceful excused (fun _ => True) (params.requireDebtCeiling debt) := by
  unfold requireDebtCeiling
  split
  next =>
    split
    next => exact .pure trivial
    next => split <;> exact reject_graceful rfl
  next => exact .pure trivial

theorem requireCollateralCeiling_graceful (collateral : Coin) :
    Graceful excused (fun _ => True) (params.requireCollateralCeiling collateral) := by
  unfold requireCollateralCeiling
  split
  next => exact (require_graceful rfl).weaken
  next => exact .pure trivial

/-- The boost stays near the spread between the loan-to-values, so the sum is in range. -/
theorem availableLoanToValue_graceful (valid : params.validate = .ok ())
    {collateralValue nativeValue : Decimal} (nonneg : 0 ≤ nativeValue.toRat) :
    Graceful excused (fun loanToValue => 0 ≤ loanToValue.toRat)
      (params.availableLoanToValue collateralValue nativeValue) := by
  obtain ⟨catalytic, ⟨basic, ordered, maximum⟩, -, -⟩ := validate_ratios valid
  unfold availableLoanToValue
  split
  next => exact .pure basic
  next boosted =>
    simp only [not_or, Decimal.le_iff_toRat, Decimal.toRat_zero, not_le] at boosted
    obtain ⟨positive, worth⟩ := boosted
    refine (Decimal.div_graceful nonneg worth.le).bind fun quotient quotientNonneg => ?_
    have ratioNonneg : 0 ≤ (quotient.min params.catalyticRatio).toRat :=
      Decimal.toRat_min quotient _ ▸ le_min quotientNonneg catalytic
    have capped : (quotient.min params.catalyticRatio).toRat ≤ params.catalyticRatio.toRat :=
      Decimal.toRat_min quotient _ ▸ min_le_right _ _
    refine (Decimal.subTrusted_graceful basic ordered).bind fun spread ⟨left, low⟩ => ?_
    have spreadIs := Decimal.sub?_toRat basic ordered maximum left
    refine (Decimal.mul_graceful ratioNonneg low).returned.bind
      fun product ⟨multiplied, productNonneg⟩ => ?_
    refine (Decimal.div_graceful productNonneg catalytic).returned.bind
      fun boost ⟨divided, boostNonneg⟩ => ?_
    have bounded :=
      boost_le positive ratioNonneg capped low (by linarith) multiplied divided
    have half := Decimal.half_div_le positive
    have inRange : params.basicLoanToValue.toRat + boost.toRat ≤ Decimal.largest.toRat := by
      rw [Decimal.largest_toRat]
      linarith
    obtain ⟨sum, added⟩ := Decimal.add?_of_le basic boostNonneg inRange
    refine (Decimal.addTrusted_graceful (.inl ?_)).mono fun sum added => ?_
    · rw [added]
      exact Option.some_ne_none sum
    · exact Decimal.add?_nonneg added basic boostNonneg

end CollateralParams

theorem Position.valuesAt_graceful (position : Position) {collateralPrice nativePrice : Decimal}
    (positive : 0 < collateralPrice.toRat) (positive' : 0 < nativePrice.toRat) :
    Graceful excused (fun values => 0 ≤ values.1.toRat ∧ 0 ≤ values.2.toRat)
      (position.valuesAt collateralPrice nativePrice) :=
  (Coin.worth_graceful positive.le).bind fun _ nonneg =>
    (Coin.worth_graceful positive'.le).bind fun _ nonneg' => .pure ⟨nonneg, nonneg'⟩

theorem Position.maxDebt_graceful (position : Position) {params : CollateralParams}
    (valid : params.validate = .ok ()) {collateralPrice nativePrice : Decimal}
    (positive : 0 < collateralPrice.toRat) (positive' : 0 < nativePrice.toRat) :
    Graceful excused (fun _ => True) (position.maxDebt params collateralPrice nativePrice) := by
  refine (position.valuesAt_graceful positive positive').bind fun _ ⟨nonneg, nonneg'⟩ => ?_
  refine (require_graceful rfl).bind fun _ _ => ?_
  refine (CollateralParams.availableLoanToValue_graceful valid nonneg').bind fun _ share => ?_
  refine (Decimal.mul_graceful nonneg share).bind fun _ limit => ?_
  exact Decimal.payOutAt_graceful limit pegTarget_pos

namespace Engine

variable {e : Engine}

theorem debtLimit_graceful (position : Position) {params : CollateralParams}
    (valid : params.validate = .ok ()) :
    Graceful excused (fun _ => True) (e.debtLimit position params) := by
  refine (price_graceful _).bind fun collateralPrice positive => ?_
  refine (price_graceful nativeDenom).bind fun nativePrice positive' => ?_
  refine (position.valuesAt_graceful positive positive').bind fun _ ⟨nonneg, nonneg'⟩ => ?_
  dsimp only
  split
  next => exact .pure trivial
  next =>
    refine (CollateralParams.availableLoanToValue_graceful valid nonneg').bind fun _ share => ?_
    exact (Decimal.mul_graceful nonneg share).bind fun _ _ => .pure trivial

theorem requireLiquidatable_graceful (position : Position) {params : CollateralParams}
    (valid : params.validate = .ok ()) {price : Decimal} (positive : 0 < price.toRat) :
    Graceful excused (fun _ => True) (requireLiquidatable position params price) := by
  obtain ⟨-, -, threshold, -⟩ := CollateralParams.validate_ratios valid
  refine (Coin.worth_graceful positive.le).bind fun _ nonneg => ?_
  refine (Decimal.mul_graceful nonneg threshold.le).bind fun _ _ => ?_
  refine (Coin.worth_graceful pegTarget_pos.le).bind fun _ _ => ?_
  exact (require_graceful rfl).weaken

/-! ### Operations -/

/-- What is loaded is stored, or opened without debt. -/
theorem position_graceful (owner : Principal) (denom : Denom) (mayOpen : Bool)
    (covered : e.store.DebtsCovered ∨ ExcusesShort excused) :
    Graceful excused (fun r => r.DebtCovered ∨ ExcusesShort excused)
      (e.position owner denom mayOpen) := by
  have graceful : Graceful excused (fun _ => True) (e.position owner denom mayOpen) := by
    unfold position
    split
    next =>
      split
      next => exact .pure trivial
      next =>
        split
        next => exact .pure trivial
        next => exact reject_graceful rfl
    next => exact reject_graceful rfl
  refine graceful.returned.mono fun r returned => ?_
  obtain ⟨total, pool, stored | ⟨-, -, opened⟩⟩ := position_ok returned.1
  · exact covered.imp_left fun all => all owner denom r.total r.pool r.position total pool stored
  · refine .inl ?_
    constructor <;> rw [opened] <;> exact Nat.zero_le _

section Operations

variable (validated : e.store.Validated) (covered : e.store.DebtsCovered ∨ ExcusesShort excused)
include validated covered

theorem settledPosition_graceful (owner : Principal) {params : CollateralParams}
    (valid : params.validate = .ok ()) (mayOpen : Bool) :
    Graceful excused (fun settled => settled.DebtCovered ∨ ExcusesShort excused)
      (e.settledPosition owner params mayOpen) :=
  (position_graceful owner params.denom mayOpen covered).bind fun _ loaded =>
    PositionRecords.settle_graceful (CollateralParams.validate_rates valid).interestRate
      (Params.validate_rates validated.params).blocksPerYear loaded

theorem afterDeposit_graceful (receiver : Principal) (collateralIn nativeIn : Coin) :
    Graceful excused (fun _ => True) (e.afterDeposit receiver collateralIn nativeIn) := by
  refine (Coin.requireDenom_graceful _).bind fun _ _ => ?_
  refine (collateralParams_graceful validated _).bind fun params valid => ?_
  refine (settledPosition_graceful validated covered receiver valid true).bind fun settled _ => ?_
  refine (settled.deposit_graceful _ _).bind fun records _ => ?_
  exact (params.requireCollateralCeiling_graceful _).bind fun _ _ => .pure trivial

theorem afterRedeem_graceful (owner : Principal) (collateralOut nativeOut : Coin) :
    Graceful excused (fun _ => True) (e.afterRedeem owner collateralOut nativeOut) := by
  refine (Coin.requireDenom_graceful _).bind fun _ _ => ?_
  refine (collateralParams_graceful validated _).bind fun params valid => ?_
  refine (settledPosition_graceful validated covered owner valid false).bind fun settled _ => ?_
  refine (settled.redeem_graceful _ _).bind fun records _ => ?_
  refine (debtLimit_graceful _ valid).bind fun _ _ => ?_
  refine (Coin.worth_graceful pegTarget_pos.le).bind fun _ _ => ?_
  exact (require_graceful rfl).bind fun _ _ => .pure trivial

theorem afterBorrow_graceful (owner : Principal) (denom : Denom) (mintOut : Coin) :
    Graceful excused (fun _ => True) (e.afterBorrow owner denom mintOut) := by
  refine (Coin.requireDenom_graceful _).bind fun _ _ => ?_
  refine (collateralParams_graceful validated _).bind fun params valid => ?_
  refine (price_graceful _).bind fun collateralPrice positive => ?_
  refine (price_graceful nativeDenom).bind fun nativePrice positive' => ?_
  refine (settledPosition_graceful validated covered owner valid false).bind fun settled _ => ?_
  refine (Coin.fee_graceful (CollateralParams.validate_rates valid).mintFee.nonneg).bind
    fun mintFee _ => ?_
  refine (Coin.add_graceful _).bind fun mintTotal _ => ?_
  refine (settled.borrow_graceful _).bind fun records _ => ?_
  refine (params.requireDebtCeiling_graceful _).bind fun _ _ => ?_
  refine (records.position.maxDebt_graceful valid positive positive').bind fun maxDebt _ => ?_
  exact (require_graceful rfl).bind fun _ _ => .pure trivial

theorem afterRepay_graceful (owner : Principal) (denom : Denom) (repayInMax : Coin) :
    Graceful excused (fun _ => True) (e.afterRepay owner denom repayInMax) := by
  refine (Coin.requireDenom_graceful _).bind fun _ _ => ?_
  refine (collateralParams_graceful validated _).bind fun params valid => ?_
  refine (settledPosition_graceful validated covered owner valid false).bind fun settled owed => ?_
  refine (require_graceful rfl).bind fun _ _ => ?_
  -- No more is repaid than is owed, and the debt is part of the pool's and of the total.
  have within := Nat.min_le_left settled.position.stableDebt.amount repayInMax.amount
  refine (Coin.sub_graceful (.inl within)).bind fun _ _ => ?_
  refine (Coin.sub_graceful (.inl (Nat.min_le_left _ _))).bind fun _ _ => ?_
  refine (Coin.sub_graceful (owed.imp_left fun r => within.trans r.pool)).bind fun _ _ => ?_
  exact (Coin.sub_graceful (owed.imp_left fun r => within.trans r.total)).bind
    fun _ _ => .pure trivial

theorem afterLiquidate_graceful (debtor : Principal) (collateral repayInMax : Coin) :
    Graceful excused (fun _ => True) (e.afterLiquidate debtor collateral repayInMax) := by
  have rates := Params.validate_rates validated.params
  obtain ⟨commissionNonneg, commissionShare⟩ := rates.liquidationCommission
  refine (Coin.requireDenom_graceful _).bind fun _ _ => ?_
  refine (collateralParams_graceful validated _).bind fun params valid => ?_
  obtain ⟨feeNonneg, feeShare⟩ := (CollateralParams.validate_rates valid).liquidationFee
  refine (price_graceful _).bind fun price positive => ?_
  refine (settledPosition_graceful validated covered debtor valid false).bind
    fun settled owed => ?_
  refine (requireLiquidatable_graceful _ valid positive).bind fun _ _ => ?_
  refine (require_graceful rfl).bind fun _ held => ?_
  refine (Decimal.ofAmount_graceful _).bind fun amount counted => ?_
  have amountNonneg : 0 ≤ amount.toRat := counted ▸ Nat.cast_nonneg _
  refine (Decimal.mul_share_graceful amountNonneg feeNonneg feeShare.le).bind
    fun fee ⟨nonneg, part⟩ => ?_
  refine (Decimal.mul_share_graceful nonneg commissionNonneg commissionShare.le).bind
    fun cut ⟨cutNonneg, cutPart⟩ => ?_
  refine (Decimal.payOut_graceful cutNonneg).bind fun commission paid => ?_
  -- The commission is a share of the fee, which is a share of the collateral.
  have within : commission ≤ collateral.amount := by
    have all := (paid.trans (cutPart.trans part)).trans_eq counted
    exact_mod_cast all
  refine (Coin.sub_graceful (.inl within)).bind fun collateralOut _ => ?_
  refine (Decimal.subTrusted_graceful nonneg part).bind fun rest ⟨_, restNonneg⟩ => ?_
  refine (Decimal.mul_graceful restNonneg positive.le).bind fun value worth => ?_
  refine (Decimal.payOutAt_graceful worth pegTarget_pos).bind
    fun repayIn _ => ?_
  refine (require_graceful rfl).bind fun _ _ => ?_
  have repaid := Nat.min_le_left settled.position.stableDebt.amount repayIn
  refine (Coin.sub_graceful (.inl (Nat.min_le_left _ _))).bind fun _ _ => ?_
  refine (Coin.sub_graceful (.inl repaid)).bind fun _ _ => ?_
  refine (Coin.sub_graceful (owed.imp_left fun r => repaid.trans r.pool)).bind fun _ _ => ?_
  refine (Coin.sub_graceful (owed.imp_left fun r => repaid.trans r.total)).bind fun _ _ => ?_
  refine (Coin.sub_graceful (.inl held)).bind fun _ _ => ?_
  exact (Coin.withdraw_graceful _).bind fun _ _ => .pure trivial

/-! ### Plans -/

variable (sender : Principal)

theorem planDeposit_graceful (r : DepositRequest) :
    Graceful excused (fun _ => True) (e.planDeposit sender r) :=
  (afterDeposit_graceful validated covered _ _ _).bind fun _ _ => .pure trivial

theorem planRedeem_graceful (r : RedeemRequest) :
    Graceful excused (fun _ => True) (e.planRedeem sender r) :=
  (afterRedeem_graceful validated covered _ _ _).bind fun _ _ => .pure trivial

theorem planBorrow_graceful (r : BorrowRequest) :
    Graceful excused (fun _ => True) (e.planBorrow sender r) :=
  (afterBorrow_graceful validated covered _ _ _).bind fun _ _ =>
    (Coin.add_graceful _).bind fun _ _ => .pure trivial

theorem planRepay_graceful (r : RepayRequest) :
    Graceful excused (fun _ => True) (e.planRepay sender r) :=
  (afterRepay_graceful validated covered _ _ _).bind fun _ _ => .pure trivial

theorem planLiquidate_graceful (r : LiquidateRequest) :
    Graceful excused (fun _ => True) (e.planLiquidate sender r) :=
  (afterLiquidate_graceful validated covered _ _ _).bind fun _ _ => .pure trivial

end Operations

end Engine

end Stablecoin
