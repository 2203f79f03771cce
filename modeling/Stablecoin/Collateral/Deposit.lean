import Stablecoin.Collateral.LoanToValue

/-!
# Depositing and redeeming collateral

What a deposit or a withdrawal makes of a position's records. A withdrawal has to leave a position
whose debt is within its limit.
-/
namespace Stablecoin

def Coin.withdraw (balance amount : Coin) : Result Coin := do
  require (amount.amount ≤ balance.amount) (.collateralInsufficient amount balance)
  balance.sub amount.amount

namespace CollateralParams

/-- Refuses a pool whose collateral exceeds its ceiling. -/
def requireCollateralCeiling (params : CollateralParams) (collateral : Coin) : Result Unit :=
  match params.maxCollateral with
  | some ceiling =>
    require (collateral.amount ≤ ceiling) (.collateralCeiling collateral ceiling)
  | none => pure ()

end CollateralParams

namespace PositionRecords

def deposit (r : PositionRecords) (collateral native : Coin) : Result PositionRecords := do
  let held ← r.position.collateral.add collateral.amount
  let pooled ← r.pool.collateral.add collateral.amount
  let locked ← r.position.nativeLocked.add native.amount
  let poolLocked ← r.pool.nativeLocked.add native.amount
  let totalLocked ← r.total.nativeLocked.add native.amount
  pure
    { total := { r.total with nativeLocked := totalLocked }
      pool := { r.pool with collateral := pooled, nativeLocked := poolLocked }
      position := { r.position with collateral := held, nativeLocked := locked } }

def redeem (r : PositionRecords) (collateral native : Coin) : Result PositionRecords := do
  let held ← r.position.collateral.withdraw collateral
  let pooled ← r.pool.collateral.withdraw collateral
  let locked ← r.position.nativeLocked.withdraw native
  let poolLocked ← r.pool.nativeLocked.withdraw native
  let totalLocked ← r.total.nativeLocked.withdraw native
  pure
    { total := { r.total with nativeLocked := totalLocked }
      pool := { r.pool with collateral := pooled, nativeLocked := poolLocked }
      position := { r.position with collateral := held, nativeLocked := locked } }

end PositionRecords

namespace Engine

def afterDeposit (e : Engine) (receiver : Principal) (collateralIn nativeIn : Coin) :
    Result PositionRecords := do
  nativeIn.requireDenom nativeDenom
  let params ← e.collateralParams collateralIn.denom
  let records ← (← e.settledPosition receiver params true).deposit collateralIn nativeIn
  params.requireCollateralCeiling records.pool.collateral
  pure records

def afterRedeem (e : Engine) (owner : Principal) (collateralOut nativeOut : Coin) :
    Result PositionRecords := do
  nativeOut.requireDenom nativeDenom
  let params ← e.collateralParams collateralOut.denom
  let records ← (← e.settledPosition owner params false).redeem collateralOut nativeOut
  -- The limit is that of the position as the withdrawal would leave it.
  let limit ← e.debtLimit records.position params
  let debtValue ← records.position.stableDebt.worth pegTarget
  require (debtValue ≤ limit.maxDebtValue) (.debtAboveLimit debtValue.text limit.maxDebtValue.text)
  pure records

end Engine

end Stablecoin
