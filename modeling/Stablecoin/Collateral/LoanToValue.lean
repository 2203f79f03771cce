import Stablecoin.Collateral.Interest
import Stablecoin.Engine.Basic

/-!
# Loan-to-value

Locked native token raises the usable loan-to-value linearly from the basic to the maximum one,
which is reached at the catalytic ratio.
-/
namespace Stablecoin

namespace CollateralParams

/-- The loan-to-value of a position with these values of collateral and native token. -/
def availableLoanToValue (params : CollateralParams) (collateralValue nativeValue : Decimal) :
    Result Decimal :=
  if params.catalyticRatio ≤ 0 ∨ collateralValue ≤ 0 then pure params.basicLoanToValue
  else do
    let ratio := (← nativeValue.div collateralValue).min params.catalyticRatio
    let spread ← params.loanToValue.subTrusted params.basicLoanToValue
    let boost ← (← ratio.mul spread).div params.catalyticRatio
    params.basicLoanToValue.addTrusted boost

end CollateralParams

/-- How much debt a position supports. -/
structure DebtLimit where
  loanToValue : Decimal
  maxDebtValue : Decimal
  deriving DecidableEq, Repr

/-- The values of a position's collateral and native token. -/
def Position.valuesAt (position : Position) (collateralPrice nativePrice : Decimal) :
    Result (Decimal × Decimal) := do
  let collateralValue ← position.collateral.worth collateralPrice
  let nativeValue ← position.nativeLocked.worth nativePrice
  pure (collateralValue, nativeValue)

namespace Engine

/-- The debt limit of a position, zero when its collateral has no value. -/
def debtLimit (e : Engine) (position : Position) (params : CollateralParams) :
    Result DebtLimit := do
  let collateralPrice ← e.price position.collateral.denom
  let nativePrice ← e.price nativeDenom
  let (collateralValue, nativeValue) ← position.valuesAt collateralPrice nativePrice
  if collateralValue ≤ 0 then pure ⟨0, 0⟩
  else
    let loanToValue ← params.availableLoanToValue collateralValue nativeValue
    pure ⟨loanToValue, ← collateralValue.mul loanToValue⟩

/-- A position's records with interest up to the current block. -/
def settledPosition (e : Engine) (owner : Principal) (params : CollateralParams)
    (mayOpen : Bool) : Result PositionRecords := do
  (← e.position owner params.denom mayOpen).settle params.interestRate e.height
    e.store.params.blocksPerYear

end Engine

end Stablecoin
