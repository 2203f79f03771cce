import Stablecoin.Request
import Stablecoin.Swap.Mix
import Stablecoin.Swap.Surplus

/-!
# Selling backing while it is short

Quotes for selling backing for newly minted native token and a bonus. What is minted, bonus
excluded, must not exceed what the missing backing is worth.
-/
namespace Stablecoin.Engine

/-- `1 + bonus - fee`, what a seller gets per native token minted. -/
def rebackMultiplier (bonus fee : Decimal) : Result Decimal := do
  let multiplier ← (← Decimal.addTrusted 1 bonus).subTrusted fee
  if multiplier ≤ 0 then
    let excess ← multiplier.subTrusted 1
    reject (.invalidParams ("reback bonus minus reback fee must exceed -1, got " ++ excess.text))
  else pure multiplier

/-- What getting `nativeOut` takes. -/
def rebackCost (e : Engine) (nativeOut : Coin) (denom : Denom) : Result RebackCost := do
  nativeOut.requireDenom nativeDenom
  let params ← e.backingParams denom
  let backingPrice ← e.price denom
  let nativePrice ← e.price nativeDenom
  let pool := (← e.backing denom).pool
  let available ← e.availableReback nativePrice
  let fee := params.rebackFee.getD 0
  let multiplier ← rebackMultiplier e.store.params.rebackBonus fee
  let minted ← (← nativeOut.toDecimal).div multiplier
  let backingIn ← (← minted.mul nativePrice).payInAt backingPrice
  let rebackFee ← (← minted.mul fee).charge
  params.requireBackingCeiling (← pool.backing.add backingIn)
  require (minted ≤ available) (.nativeInsufficient minted.text available.text)
  pure ⟨⟨denom, backingIn⟩, ⟨nativeDenom, rebackFee⟩⟩

/-- What `backingIn` sells for. -/
def rebackQuote (e : Engine) (backingIn : Coin) : Result RebackQuote := do
  let denom := backingIn.denom
  let params ← e.backingParams denom
  let backingPrice ← e.price denom
  let nativePrice ← e.price nativeDenom
  let pool := (← e.backing denom).pool
  params.requireBackingCeiling (← pool.backing.add backingIn.amount)
  let available ← e.availableReback nativePrice
  let minted : Coin := ⟨nativeDenom, ← (← backingIn.worth backingPrice).payOutAt nativePrice⟩
  -- Bonus and fee are both shares of what the backing itself is worth.
  let bonus ← minted.fee (some e.store.params.rebackBonus)
  let rebackFee ← minted.fee params.rebackFee
  require ((← minted.toDecimal) ≤ available) (.nativeInsufficient minted.text available.text)
  pure ⟨← (← minted.add bonus.amount).sub rebackFee.amount, rebackFee⟩

end Stablecoin.Engine
