import Stablecoin.Engine.Basic
import Stablecoin.Request
import Stablecoin.Swap.Mix

/-!
# Burning by swap

Quotes for a burn, from the payouts wanted and from the amount offered.
-/
namespace Stablecoin.Engine

/-- The value of a fractional burn within both payout caps and the amounts that it pays. -/
def fractionalBurn (ratio backingPrice nativePrice : Decimal) (backingMax nativeMax : Coin)
    (backingMaxValue nativeMaxValue : Decimal) : Result (Decimal × Nat × Nat) := do
  let byBacking ← backingMaxValue.div ratio
  let byNative ← nativeMaxValue.div (← Decimal.subTrusted 1 ratio)
  -- On a tie the native cap binds.
  if nativeMax.isZero ∨ (backingMax.isPositive ∧ byBacking < byNative) then
    let nativeOut ← (← byBacking.mul (← Decimal.subTrusted 1 ratio)).payOutAt nativePrice
    pure (byBacking, backingMax.amount, nativeOut)
  else
    let backingOut ← (← byNative.mul ratio).payOutAt backingPrice
    pure (byNative, backingOut, nativeMax.amount)

/-- The value of the largest burn within both payout caps and the amounts that it pays, by mix. -/
def burnWithin (mix : Mix) (backingPrice nativePrice : Decimal) (backingMax nativeMax : Coin)
    (backingMaxValue nativeMaxValue : Decimal) : Result (Decimal × Nat × Nat) :=
  match mix with
  | .fullBacking => pure (backingMaxValue, backingMax.amount, 0)
  | .algorithmic => pure (nativeMaxValue, 0, nativeMax.amount)
  | .fractional ratio =>
    fractionalBurn ratio backingPrice nativePrice backingMax nativeMax backingMaxValue
      nativeMaxValue

/-- What has to be burned for the most that both payout caps allow. -/
def burnCost (e : Engine) (backingMax nativeMax : Coin) : Result BurnCost := do
  nativeMax.requireDenom nativeDenom
  e.requireBurnPrice
  let denom := backingMax.denom
  let params ← e.backingParams denom
  let backingPrice ← e.price denom
  let nativePrice ← e.price nativeDenom
  let backingMaxValue ← backingMax.worth backingPrice
  let nativeMaxValue ← nativeMax.worth nativePrice
  let mix := Mix.of e.store.params.backingRatio false
  let (value, backingOut, nativeOut) ←
    burnWithin mix backingPrice nativePrice backingMax nativeMax backingMaxValue nativeMaxValue
  let held := e.moduleBalance denom
  require (backingOut ≤ held)
    (.backingInsufficient (Coin.mk denom backingOut).text (Coin.mk denom held).text)
  let burnInValue ← (← value.div pegTarget).div (← feeComplement "burn_fee" params.burnFee)
  let burnFeeValue ← burnInValue.mul (params.burnFee.getD 0)
  pure ⟨⟨stableDenom, ← burnInValue.payIn⟩, ⟨denom, backingOut⟩, ⟨nativeDenom, nativeOut⟩,
    ⟨stableDenom, ← burnFeeValue.charge⟩⟩

/-- Backing can leave up to what both the pool's record and the module account hold. -/
def requireBackingHeld (e : Engine) (pool : BackingPool) (denom : Denom) (amount : Nat) :
    Result Unit :=
  let available := min pool.backing.amount (e.moduleBalance denom)
  require (amount ≤ available)
    (.backingInsufficient (Coin.mk denom amount).text (Coin.mk denom available).text)

/-- The amounts of backing and native token that a value is paid out in, by mix. -/
def burnOut (mix : Mix) (backingPrice nativePrice value : Decimal) : Result (Nat × Nat) :=
  match mix with
  | .fullBacking => do pure (← value.payOutAt backingPrice, 0)
  | .algorithmic => do pure (0, ← value.payOutAt nativePrice)
  | .fractional ratio => do
    let backingOut ← (← value.mul ratio).payOutAt backingPrice
    let nativeOut ← (← value.mul (← Decimal.subTrusted 1 ratio)).payOutAt nativePrice
    pure (backingOut, nativeOut)

/-- What burning exactly `burnIn` pays. -/
def burnQuote (e : Engine) (burnIn : Coin) (denom : Denom) : Result BurnQuote := do
  burnIn.requireDenom stableDenom
  e.requireBurnPrice
  let params ← e.backingParams denom
  let backingPrice ← e.price denom
  let nativePrice ← e.price nativeDenom
  let burnFee ← burnIn.fee params.burnFee
  let value ← (← burnIn.sub burnFee.amount).worth pegTarget
  let mix := Mix.of e.store.params.backingRatio false
  let (backingOut, nativeOut) ← burnOut mix backingPrice nativePrice value
  e.requireBackingHeld (← e.backing denom).pool denom backingOut
  pure ⟨⟨denom, backingOut⟩, ⟨nativeDenom, nativeOut⟩, burnFee⟩

end Stablecoin.Engine
