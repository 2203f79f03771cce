import Stablecoin.Params

/-!
# Fees and price bounds

Fees are proportional to an amount. Minting and burning are each allowed on one side of the peg
only.
-/
namespace Stablecoin

/-- The fee on a coin, nothing when no rate is set. -/
def Coin.fee (c : Coin) : Option Decimal → Result Coin
  | some rate => do
    let value ← (← c.toDecimal).mul rate
    pure ⟨c.denom, ← value.charge⟩
  | none => pure (Coin.zero c.denom)

/-- Minting needs a stable price of at least `target * (1 + bias)`. -/
def requireMintPrice (price bias : Decimal) : Result Unit := do
  let lowerBound ← pegTarget.mul (← Decimal.add 1 bias)
  require (lowerBound ≤ price) (.stablePriceTooLow price.text lowerBound.text)

/-- Burning needs a stable price of at most `target * (1 - bias)`. -/
def requireBurnPrice (price bias : Decimal) : Result Unit := do
  let upperBound ← pegTarget.mul (← Decimal.subTrusted 1 bias)
  require (price ≤ upperBound) (.stablePriceTooHigh price.text upperBound.text)

/-- `1 - rate`, by which an amount is divided to gross it up by a fee. -/
def feeComplement (name : String) (rate : Option Decimal) : Result Decimal := do
  let rate := rate.getD 0
  require (rate < 1) (.invalidParams (name ++ " must be below 1, got " ++ rate.text))
  Decimal.subTrusted 1 rate

end Stablecoin
