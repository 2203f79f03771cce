import Stablecoin.Collateral.LoanToValue
import Stablecoin.Request

/-!
# Borrowing and repaying

What a loan or a repayment makes of a position's records. Repayments settle interest first.
-/
namespace Stablecoin

namespace CollateralParams

/-- Refuses a pool whose debt, interest included, exceeds its ceiling. -/
def requireDebtCeiling (params : CollateralParams) (debt : Coin) : Result Unit :=
  match params.maxStableMint with
  | some ceiling =>
    if debt.amount ≤ ceiling then pure ()
    else if debt.amount < counterBound then
      reject (.stableCeiling ⟨stableDenom, debt.amount⟩ ceiling)
    else reject .overflow
  | none => pure ()

end CollateralParams

namespace PositionRecords

def borrow (r : PositionRecords) (amount : Nat) : Result PositionRecords := do
  let debt ← r.position.stableDebt.add amount
  let poolDebt ← r.pool.stableDebt.add amount
  let totalDebt ← r.total.stableDebt.add amount
  pure
    { total := { r.total with stableDebt := totalDebt }
      pool := { r.pool with stableDebt := poolDebt }
      position := { r.position with stableDebt := debt } }

end PositionRecords

/-- The most debt that a position supports, in whole stable units; refused when its collateral has
no value. -/
def Position.maxDebt (position : Position) (params : CollateralParams)
    (collateralPrice nativePrice : Decimal) : Result Nat := do
  let (collateralValue, nativeValue) ← position.valuesAt collateralPrice nativePrice
  require (0 < collateralValue)
    (.debtAboveLimit position.stableDebt.text (Coin.zero stableDenom).text)
  let loanToValue ← params.availableLoanToValue collateralValue nativeValue
  (← collateralValue.mul loanToValue).payOutAt pegTarget

namespace Engine

/-- The fee of a loan and the owner's records after it. -/
def afterBorrow (e : Engine) (owner : Principal) (denom : Denom) (mintOut : Coin) :
    Result (Coin × PositionRecords) := do
  mintOut.requireDenom stableDenom
  let params ← e.collateralParams denom
  let collateralPrice ← e.price denom
  let nativePrice ← e.price nativeDenom
  let settled ← e.settledPosition owner params false
  let mintFee ← mintOut.fee params.mintFee
  let mintTotal ← mintOut.add mintFee.amount
  let records ← settled.borrow mintTotal.amount
  -- Ceiling and limit have to hold with the new debt and its fee included.
  params.requireDebtCeiling records.pool.stableDebt
  let maxDebt ← records.position.maxDebt params collateralPrice nativePrice
  let debt := records.position.stableDebt
  require (debt.amount ≤ maxDebt) (.debtAboveLimit debt.text (Coin.mk stableDenom maxDebt).text)
  pure (mintFee, records)

/-- The parts of a repayment and the owner's records after it. -/
def afterRepay (e : Engine) (owner : Principal) (denom : Denom) (repayInMax : Coin) :
    Result (Repayment × PositionRecords) := do
  repayInMax.requireDenom stableDenom
  let params ← e.collateralParams denom
  let r ← e.settledPosition owner params false
  require (r.position.stableDebt.isZero = false) (.noDebt denom)
  -- No more is taken than is owed, and interest comes first.
  let repayIn := min r.position.stableDebt.amount repayInMax.amount
  let repayInterest := min r.position.interest.amount repayIn
  let debt ← r.position.stableDebt.sub repayIn
  let interest ← r.position.interest.sub repayInterest
  let poolDebt ← r.pool.stableDebt.sub repayIn
  let totalDebt ← r.total.stableDebt.sub repayIn
  pure (⟨⟨stableDenom, repayIn⟩, ⟨stableDenom, repayInterest⟩,
      ⟨stableDenom, repayIn - repayInterest⟩⟩,
    { total := { r.total with stableDebt := totalDebt }
      pool := { r.pool with stableDebt := poolDebt }
      position := { r.position with stableDebt := debt, interest := interest } })

end Engine

end Stablecoin
