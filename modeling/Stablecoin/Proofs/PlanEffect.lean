import Stablecoin.Proofs.LedgerFlow
import Stablecoin.Proofs.PlanSpec

/-!
# What a plan does to coins and books

A plan moves coins and writes records. Whichever of the nine transactions it stems from, what the
module account gains is what the records of backing and collateral gain, and what comes into being
is what the counters of issued tokens say, up to the interest that a liquidation clears.
-/
namespace Stablecoin

/-- Risk parameters and positions stand under the names that they carry. -/
structure Store.Named (s : Store) : Prop where
  collateralParams : ∀ denom params,
    s.collateralParams.get? denom = some params → params.denom = denom
  position : ∀ owner denom position, s.positions.get? (owner, denom) = some position →
    position.owner = owner ∧ position.collateral.denom = denom

/-- Records stand under the names that they carry, and pools exist for risk assets only. -/
structure Store.Keyed (s : Store) : Prop where
  collateralParams : ∀ denom params,
    s.collateralParams.get? denom = some params → params.denom = denom
  backingPool : ∀ denom pool, s.backingPools.get? denom = some pool →
    pool.backing.denom = denom ∧ denom ≠ stableDenom ∧ denom ≠ nativeDenom
  collateralPool : ∀ denom pool, s.collateralPools.get? denom = some pool →
    pool.collateral.denom = denom ∧ denom ≠ stableDenom ∧ denom ≠ nativeDenom
  position : ∀ owner denom position, s.positions.get? (owner, denom) = some position →
    position.owner = owner ∧ position.collateral.denom = denom

theorem Store.Keyed.named {s : Store} (keyed : s.Keyed) : s.Named :=
  ⟨keyed.collateralParams, keyed.position⟩

namespace Engine

/-- The interest that a liquidation clears. It is burned with the debt, although no token was
issued when it accrued. -/
def interestCleared (e : Engine) (r : LiquidateRequest) : Result Nat := do
  let params ← e.collateralParams r.collateral.denom
  let settled ← e.settledPosition r.debtor params false
  let (parts, _) ← e.afterLiquidate r.debtor r.collateral r.repayInMax
  pure (min settled.position.interest.amount parts.repayDebt.amount)

/-- The interest that a request clears without paying it to anyone. -/
def clearedFor (e : Engine) : Request → Nat
  | .liquidate r => (e.interestCleared r).toOption.getD 0
  | _ => 0

/-- What a plan does to the books and to the coins, `cleared` being the interest that it burns. -/
inductive Effect (e : Engine) (cleared : Nat) (plan : Plan) : Prop where
  | swap (denom : Denom) (before after : BackingRecords) (change : BackingChange) (fee : Coin)
      (loaded : e.backing denom = .ok before) (written : plan.update = .backing after)
      (changed : before.Changed change after)
      (kept : ∀ d, batchFlow plan.moves (.module e.accounts.module) d
        = (if denom = d then change.backing else 0)
          + if e.accounts.feeCollector = e.accounts.module then fee.inDenom d else 0)
      (issued : ∀ d, batchIssue plan.moves d
        = (if stableDenom = d then change.stable else 0)
          - if nativeDenom = d then change.native else 0)
      (uncleared : cleared = 0)
  | position (owner : Principal) (denom : Denom) (mayOpen : Bool) (before after : PositionRecords)
      (change : PositionChange) (fee : Coin)
      (loaded : e.position owner denom mayOpen = .ok before)
      (written : plan.update = .position after) (changed : before.Changed change after)
      (covered : before.position.interest.amount ≤ before.position.stableDebt.amount →
        after.position.interest.amount ≤ after.position.stableDebt.amount)
      (kept : ∀ d, batchFlow plan.moves (.module e.accounts.module) d
        = (if denom = d then change.collateral else 0)
          + (if nativeDenom = d then change.native else 0)
          + if e.accounts.feeCollector = e.accounts.module then fee.inDenom d else 0)
      (issued : ∀ d, batchIssue plan.moves d
        = if stableDenom = d then change.debt - change.interest - cleared else 0)

variable {e : Engine} {sender : Principal} {plan : Plan}

/-! ### Swaps -/

theorem planMint_effect {r : MintRequest} (planned : e.planMint sender r = .ok plan) :
    e.Effect 0 plan := by
  obtain ⟨-, q, before, after, quoted, -, loaded, changed, moves, written, -, -⟩ :=
    planMint_ok planned
  obtain ⟨-, -, _, _, _, _, _, _, backingIn, nativeIn, mintTotal, _, _, _, mintFee, -, -, -, -, -,
    -, -, -, -, -, -, -, charged, covered, rfl⟩ := mintQuote_ok quoted
  have feeDenom : mintFee.denom = stableDenom := Coin.fee_denom charged
  refine .swap _ before after _ mintFee loaded written changed ?_ ?_ rfl
  · -- The native token is burned and the minted units leave, so only backing stays.
    intro d
    rw [moves]
    grind [Coin.inDenom]
  · intro d
    rw [moves]
    grind [Coin.inDenom]

theorem planBurn_effect {r : BurnRequest} (planned : e.planBurn sender r = .ok plan) :
    e.Effect 0 plan := by
  obtain ⟨-, q, before, after, quoted, -, -, covered, loaded, changed, moves, written, -, -⟩ :=
    planBurn_ok planned
  obtain ⟨stable, -, _, _, _, burnFee, _, backingOut, nativeOut, _, -, -, -, charged, -, -, -, -,
    -, -, rfl⟩ := burnQuote_ok quoted
  have feeDenom : burnFee.denom = stableDenom := (Coin.fee_denom charged).trans stable
  dsimp only at covered
  refine .swap _ before after _ burnFee loaded written changed ?_ ?_ rfl
  · -- The native token paid out is minted first, so only backing leaves for good.
    intro d
    rw [moves]
    grind [Coin.inDenom]
  · intro d
    rw [moves]
    grind [Coin.inDenom]

theorem planBuyback_effect {r : BuybackRequest} (planned : e.planBuyback sender r = .ok plan) :
    e.Effect 0 plan := by
  obtain ⟨q, before, after, quoted, -, loaded, changed, moves, written, -, -⟩ :=
    planBuyback_ok planned
  obtain ⟨native, _, _, _, _, _, total, _, buybackFee, -, -, -, -, -, -, -, -, -, -, charged,
    covered, rfl⟩ := buybackQuote_ok quoted
  have feeDenom := Coin.fee_denom charged
  refine .swap _ before after _ buybackFee loaded written changed ?_ ?_ rfl
  · -- The fee is in backing here, and leaves the pool with what is paid out.
    intro d
    rw [moves]
    grind [Coin.inDenom]
  · intro d
    rw [moves]
    grind [Coin.inDenom]

theorem planReback_effect {r : RebackRequest} (planned : e.planReback sender r = .ok plan) :
    e.Effect 0 plan := by
  obtain ⟨-, q, before, after, quoted, -, loaded, changed, moves, written, -, -⟩ :=
    planReback_ok planned
  obtain ⟨_, _, _, _, _, _, _, minted, bonus, rebackFee, _, -, -, -, -, -, -, -, -, -, -, charged,
    -, -, covered, rfl⟩ := rebackQuote_ok quoted
  have feeDenom : rebackFee.denom = nativeDenom := Coin.fee_denom charged
  refine .swap _ before after _ rebackFee loaded written changed ?_ ?_ rfl
  · -- What is minted, bonus included, leaves as payout and fee.
    intro d
    rw [moves]
    grind [Coin.inDenom]
  · intro d
    rw [moves]
    grind [Coin.inDenom]

/-! ### Positions -/

/-- A settled position comes from the records under its name, with interest added. -/
theorem settledPosition_changed {owner : Principal} {denom : Denom} {params : CollateralParams}
    {mayOpen : Bool} {settled : PositionRecords} (named : e.store.Named)
    (known : e.collateralParams denom = .ok params)
    (returned : e.settledPosition owner params mayOpen = .ok settled) :
    ∃ before, e.position owner denom mayOpen = .ok before ∧
      ∃ interest : Nat, before.Changed { debt := interest, interest := interest } settled := by
  obtain ⟨before, loaded, accrued⟩ := settledPosition_ok returned
  rw [named.collateralParams denom params (collateralParams_ok known).1] at loaded
  exact ⟨before, loaded, PositionRecords.settle_changed accrued⟩

/-- A loaded position carries the owner and the denomination it was asked for. -/
theorem position_owned {owner : Principal} {denom : Denom} {mayOpen : Bool} {r : PositionRecords}
    (named : e.store.Named) (loaded : e.position owner denom mayOpen = .ok r) :
    r.position.owner = owner ∧ r.position.collateral.denom = denom := by
  obtain ⟨-, -, stored | ⟨-, -, opened⟩⟩ := position_ok loaded
  · exact named.position owner denom _ stored
  · rw [opened]
    exact ⟨rfl, rfl⟩

/-- What an operation makes of a settled position still carries the owner and the denomination that
were asked for. -/
theorem settledPosition_owned {owner : Principal} {denom : Denom} {risk : CollateralParams}
    {mayOpen : Bool} {settled after : PositionRecords} {change : PositionChange}
    (named : e.store.Named) (known : e.collateralParams denom = .ok risk)
    (loaded : e.settledPosition owner risk mayOpen = .ok settled)
    (changed : settled.Changed change after) :
    after.position.owner = owner ∧ after.position.collateral.denom = denom := by
  obtain ⟨before, found, interest, accrued⟩ := settledPosition_changed named known loaded
  obtain ⟨owned, of⟩ := position_owned named found
  have all := accrued.trans changed
  exact ⟨all.owner.trans owned, all.denom.trans of⟩

theorem planDeposit_effect {r : DepositRequest} (keyed : e.store.Keyed)
    (planned : e.planDeposit sender r = .ok plan) : e.Effect 0 plan := by
  obtain ⟨after, computed, moves, written, -, -⟩ := planDeposit_ok planned
  obtain ⟨native, params, settled, known, loaded, deposited, -⟩ := afterDeposit_ok computed
  obtain ⟨before, found, interest, accrued⟩ := settledPosition_changed keyed.named known loaded
  -- The deposit comes on top of the interest settled first.
  have changed := accrued.trans (PositionRecords.deposit_changed deposited)
  have within := changed.interest_le (by dsimp only; omega)
  refine .position _ _ _ before after _ (.zero stableDenom) found written changed within ?_ ?_
  · intro d
    rw [moves, Coin.inDenom_zero]
    grind [Coin.inDenom]
  · intro d
    rw [moves]
    grind

theorem planRedeem_effect {r : RedeemRequest} (keyed : e.store.Keyed)
    (planned : e.planRedeem sender r = .ok plan) : e.Effect 0 plan := by
  obtain ⟨after, computed, moves, written, -, -⟩ := planRedeem_ok planned
  obtain ⟨native, params, settled, _, _, known, loaded, redeemed, -⟩ := afterRedeem_ok computed
  obtain ⟨before, found, interest, accrued⟩ := settledPosition_changed keyed.named known loaded
  have changed := accrued.trans (PositionRecords.redeem_changed redeemed)
  have within := changed.interest_le (by dsimp only; omega)
  refine .position _ _ _ before after _ (.zero stableDenom) found written changed within ?_ ?_
  · intro d
    rw [moves, Coin.inDenom_zero]
    grind [Coin.inDenom]
  · intro d
    rw [moves]
    grind

theorem planBorrow_effect {r : BorrowRequest} (keyed : e.store.Keyed)
    (planned : e.planBorrow sender r = .ok plan) : e.Effect 0 plan := by
  obtain ⟨fee, after, computed, moves, written, -, -⟩ := planBorrow_ok planned
  obtain ⟨stable, params, _, _, settled, _, known, -, -, loaded, charged, borrowed, -⟩ :=
    afterBorrow_ok computed
  obtain ⟨before, found, interest, accrued⟩ := settledPosition_changed keyed.named known loaded
  have changed := accrued.trans (PositionRecords.borrow_changed borrowed)
  have feeDenom : fee.denom = stableDenom := (Coin.fee_denom charged).trans stable
  have within := changed.interest_le (by dsimp only; omega)
  refine .position _ _ _ before after _ fee found written changed within ?_ ?_
  · intro d
    rw [moves]
    grind [Coin.inDenom]
  · -- Interest accrued on the way adds to debt and interest alike, and is not issued.
    intro d
    rw [moves]
    grind [Coin.inDenom]

theorem planRepay_effect {r : RepayRequest} (keyed : e.store.Keyed)
    (planned : e.planRepay sender r = .ok plan) : e.Effect 0 plan := by
  obtain ⟨parts, after, computed, moves, written, -, -⟩ := planRepay_ok planned
  obtain ⟨-, params, settled, repayIn, repayInterest, known, loaded, -, capped, shared, rfl,
    repaid⟩ := afterRepay_ok computed
  obtain ⟨before, found, interest, accrued⟩ := settledPosition_changed keyed.named known loaded
  have changed := accrued.trans repaid
  have within := accrued.interest_le (by dsimp only; omega)
  refine .position _ _ _ before after _ ⟨stableDenom, repayInterest⟩ found written changed ?_ ?_ ?_
  · intro covered
    exact repaid.interest_le_of_repaid rfl (by rw [shared]) (within covered)
  · intro d
    rw [moves]
    grind [Coin.inDenom]
  · -- Interest is passed on, so only the principal part is burned.
    intro d
    rw [moves]
    grind [Coin.inDenom]

/-- What a liquidation clears is the interest that its plan takes off the position. -/
theorem interestCleared_eq {debtor : Principal} {collateral repayInMax : Coin}
    {receiver : Option Principal} {params : CollateralParams} {settled : PositionRecords}
    {parts : Liquidation} {after : PositionRecords}
    (known : e.collateralParams collateral.denom = .ok params)
    (loaded : e.settledPosition debtor params false = .ok settled)
    (computed : e.afterLiquidate debtor collateral repayInMax = .ok (parts, after)) :
    e.interestCleared ⟨receiver, debtor, collateral, repayInMax⟩
      = .ok (min settled.position.interest.amount parts.repayDebt.amount) := by
  simp only [interestCleared, bind_ok, pure_ok]
  exact ⟨params, known, settled, loaded, _, computed, rfl⟩

theorem planLiquidate_effect {r : LiquidateRequest} (keyed : e.store.Keyed)
    (planned : e.planLiquidate sender r = .ok plan) :
    e.Effect (e.clearedFor (.liquidate r)) plan := by
  obtain ⟨parts, after, computed, moves, written, -, -⟩ := planLiquidate_ok planned
  obtain ⟨-, params, _, settled, _, _, commission, _, _, repayIn, repayDebt, repayInterest, known,
    -, loaded, -, -, -, -, -, -, -, -, taken, capped, shared, rfl, liquidated⟩ :=
    afterLiquidate_ok computed
  have cleared : e.clearedFor (.liquidate r) = repayInterest := by
    rw [clearedFor, interestCleared_eq known loaded computed, shared]
    rfl
  obtain ⟨before, found, interest, accrued⟩ := settledPosition_changed keyed.named known loaded
  have changed := accrued.trans liquidated
  have within := accrued.interest_le (by dsimp only; omega)
  refine .position _ _ _ before after _ ⟨r.collateral.denom, commission⟩ found written changed
    ?_ ?_ ?_
  · intro covered
    exact liquidated.interest_le_of_repaid rfl (by rw [shared]) (within covered)
  · intro d
    rw [moves]
    grind [Coin.inDenom]
  · -- Interest is burned with the debt here, which is what clears it.
    intro d
    rw [moves, cleared]
    grind [Coin.inDenom]

/-- Every plan keeps coins and books together. -/
theorem plan_effect {request : Request} (keyed : e.store.Keyed)
    (planned : e.plan sender request = .ok plan) : e.Effect (e.clearedFor request) plan := by
  cases request with
  | mint => exact planMint_effect planned
  | burn => exact planBurn_effect planned
  | buyback => exact planBuyback_effect planned
  | reback => exact planReback_effect planned
  | borrow => exact planBorrow_effect keyed planned
  | repay => exact planRepay_effect keyed planned
  | deposit => exact planDeposit_effect keyed planned
  | redeem => exact planRedeem_effect keyed planned
  | liquidate => exact planLiquidate_effect keyed planned

end Engine

end Stablecoin
