import Stablecoin.Swap.Burn
import Stablecoin.Swap.Surplus

/-!
# Buying surplus backing

Quotes for buying backing with native token. The native token's value must not exceed the surplus.
-/
namespace Stablecoin.Engine

def requireSurplus (value : Decimal) (excess : Int) : Result Unit := do
  require (value ≤ (← Decimal.ofCounter excess))
    (.backingInsufficient value.text (toString excess))

/-- What buying `backingOut` takes. -/
def buybackCost (e : Engine) (backingOut : Coin) : Result BuybackCost := do
  let denom := backingOut.denom
  let params ← e.backingParams denom
  let backingPrice ← e.price denom
  let nativePrice ← e.price nativeDenom
  let excess ← e.excessBacking
  let wanted ← backingOut.toDecimal
  let complement ← feeComplement "buyback_fee" params.buybackFee
  let total : Coin := ⟨denom, ← wanted.payOutAt complement⟩
  let value ← total.worth backingPrice
  requireSurplus value excess
  e.requireBackingHeld (← e.backing denom).pool denom total.amount
  let nativeIn ← value.payInAt nativePrice
  let buybackFee ← (← total.worth (params.buybackFee.getD 0)).charge
  pure ⟨⟨nativeDenom, nativeIn⟩, ⟨denom, buybackFee⟩⟩

/-- What `nativeIn` buys. -/
def buybackQuote (e : Engine) (nativeIn : Coin) (denom : Denom) : Result BuybackQuote := do
  nativeIn.requireDenom nativeDenom
  let params ← e.backingParams denom
  let backingPrice ← e.price denom
  let nativePrice ← e.price nativeDenom
  let excess ← e.excessBacking
  let value ← nativeIn.worth nativePrice
  requireSurplus value excess
  let total : Coin := ⟨denom, ← value.payOutAt backingPrice⟩
  e.requireBackingHeld (← e.backing denom).pool denom total.amount
  let buybackFee ← total.fee params.buybackFee
  pure ⟨← total.sub buybackFee.amount, buybackFee⟩

end Stablecoin.Engine
