import Stablecoin.Collateral.Deposit
import Stablecoin.Request

/-!
# Liquidation

Collateral of a position whose debt has reached the liquidation threshold is sold for stable units
at a price below market by the liquidation fee. A part of that fee, the commission, is taken from
the collateral sold.
-/
namespace Stablecoin.Engine

/-- Refuses to liquidate a position whose debt is below its liquidation value. -/
def requireLiquidatable (position : Position) (params : CollateralParams) (price : Decimal) :
    Result Unit := do
  let liquidationValue ← (← position.collateral.worth price).mul params.liquidationThreshold
  let debtValue ← position.stableDebt.worth pegTarget
  require (liquidationValue ≤ debtValue) (.notLiquidatable debtValue.text liquidationValue.text)

/-- The parts of a liquidation and the debtor's records after it. -/
def afterLiquidate (e : Engine) (debtor : Principal) (collateral repayInMax : Coin) :
    Result (Liquidation × PositionRecords) := do
  repayInMax.requireDenom stableDenom
  let denom := collateral.denom
  let params ← e.collateralParams denom
  let price ← e.price denom
  let r ← e.settledPosition debtor params false
  requireLiquidatable r.position params price
  require (collateral.amount ≤ r.position.collateral.amount)
    (.collateralInsufficient collateral r.position.collateral)
  let amount ← collateral.toDecimal
  let fee ← amount.mul params.liquidationFee
  -- The commission stays behind in collateral; what is paid for leaves out the whole fee.
  let commission ← (← fee.mul e.store.params.liquidationCommission).payOut
  let collateralOut ← collateral.sub commission
  let repayIn ← (← (← amount.subTrusted fee).mul price).payOutAt pegTarget
  require (repayIn ≤ repayInMax.amount) (.slippage ⟨stableDenom, repayIn⟩ repayInMax)
  -- Interest is cleared before principal, and a payment above the debt is refunded.
  let repayDebt := min r.position.stableDebt.amount repayIn
  let repayInterest := min r.position.interest.amount repayDebt
  let interest ← r.position.interest.sub repayInterest
  let debt ← r.position.stableDebt.sub repayDebt
  let poolDebt ← r.pool.stableDebt.sub repayDebt
  let totalDebt ← r.total.stableDebt.sub repayDebt
  let held ← r.position.collateral.sub collateral.amount
  let pooled ← r.pool.collateral.withdraw collateral
  pure (⟨⟨stableDenom, repayIn⟩, ⟨stableDenom, repayDebt⟩, ⟨stableDenom, repayIn - repayDebt⟩,
      collateralOut, ⟨denom, commission⟩⟩,
    { total := { r.total with stableDebt := totalDebt }
      pool := { r.pool with stableDebt := poolDebt, collateral := pooled }
      position :=
        { r.position with stableDebt := debt, interest := interest, collateral := held } })

end Stablecoin.Engine
