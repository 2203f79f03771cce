import Stablecoin.Checked
import Stablecoin.Records

/-!
# Interest

Interest accrues on principal debt for the blocks since the last settlement, rounded to nearest.
The position's debt, the pool's and the total grow by the same amount.
-/
namespace Stablecoin

namespace Position

/-- Debt that bears interest. -/
def principal (p : Position) : Result Coin := p.stableDebt.sub p.interest.amount

end Position

/-- Interest on a principal for a number of blocks. -/
def accruedInterest (principal : Coin) (rate : Decimal) (period : Nat)
    (blocksPerYear : Height) : Result Nat := do
  let yearly ← (← principal.toDecimal).mul rate
  let accrued ← yearly.mul (← Decimal.ofAmount period)
  (← accrued.div (← Decimal.ofAmount blocksPerYear.toNat)).charge

namespace PositionRecords

/-- The records after interest up to a block. A block that is not after the last settlement
changes nothing. -/
def settle (r : PositionRecords) (rate : Decimal) (height blocksPerYear : Height) :
    Result PositionRecords := do
  let period := blocksBetween r.position.settledAt height
  if period = 0 then pure r
  else
    require (blocksPerYear ≠ 0) (.invalidParams "blocks_per_year must be positive")
    -- Interest bears no interest: it accrues on the principal alone.
    let interest ← accruedInterest (← r.position.principal) rate period blocksPerYear
    let accrued ← r.position.interest.add interest
    let debt ← r.position.stableDebt.add interest
    let poolDebt ← r.pool.stableDebt.add interest
    let totalDebt ← r.total.stableDebt.add interest
    pure
      { total := { r.total with stableDebt := totalDebt }
        pool := { r.pool with stableDebt := poolDebt }
        position :=
          { r.position with interest := accrued, stableDebt := debt, settledAt := height } }

end PositionRecords

end Stablecoin
