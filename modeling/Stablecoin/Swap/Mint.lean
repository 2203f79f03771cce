import Stablecoin.Engine.Basic
import Stablecoin.Request
import Stablecoin.Swap.Mix

/-!
# Minting by swap

Quotes for a mint, from the amount wanted and from the amounts offered.
-/
namespace Stablecoin.Engine

/-- The amounts of backing and native token that a value takes, by mix. -/
def mintIn (mix : Mix) (backingPrice nativePrice value : Decimal) : Result (Nat × Nat) :=
  match mix with
  | .fullBacking => do pure (← value.payInAt backingPrice, 0)
  | .algorithmic => do pure (0, ← value.payInAt nativePrice)
  | .fractional ratio => do
    let backingIn ← (← value.mul ratio).payInAt backingPrice
    let nativeIn ← (← value.mul (← Decimal.subTrusted 1 ratio)).payInAt nativePrice
    pure (backingIn, nativeIn)

/-- What minting exactly `mintOut` takes. -/
def mintCost (e : Engine) (mintOut : Coin) (denom : Denom) (fullBacking : Bool) :
    Result MintCost := do
  mintOut.requireDenom stableDenom
  e.requireMintPrice
  let params ← e.backingParams denom
  let backingPrice ← e.price denom
  let nativePrice ← e.price nativeDenom
  let mintFee ← mintOut.fee params.mintFee
  let mintTotal ← mintOut.add mintFee.amount
  let value ← mintTotal.worth pegTarget
  let pool := (← e.backing denom).pool
  params.requireMintCeiling (← pool.stableMinted.add mintTotal.amount)
  let mix := Mix.of e.store.params.backingRatio fullBacking
  let (backingIn, nativeIn) ← mintIn mix backingPrice nativePrice value
  params.requireBackingCeiling (← pool.backing.add backingIn)
  pure ⟨⟨denom, backingIn⟩, ⟨nativeDenom, nativeIn⟩, mintFee⟩

/-- A quoted amount, held to a cap unless the cap is zero. -/
def capped (amount : Nat) (cap : Coin) : Nat :=
  if cap.isPositive then min amount cap.amount else amount

/-- The value of a fractional mint within both caps and the amounts that it takes. A zero cap on
one leg leaves that leg unconstrained. -/
def fractionalMint (ratio backingPrice nativePrice : Decimal) (backingMax nativeMax : Coin)
    (backingMaxValue nativeMaxValue : Decimal) : Result (Decimal × Nat × Nat) := do
  let byBacking ← backingMaxValue.div ratio
  let byNative ← nativeMaxValue.div (← Decimal.subTrusted 1 ratio)
  -- The leg that allows less binds, unless it is unconstrained.
  if backingMax.isPositive ∧ (nativeMax.isZero ∨ byBacking ≤ byNative) then
    let nativeIn ← (← byBacking.mul (← Decimal.subTrusted 1 ratio)).payInAt nativePrice
    pure (byBacking, backingMax.amount, capped nativeIn nativeMax)
  else
    let backingIn ← (← byNative.mul ratio).payInAt backingPrice
    pure (byNative, capped backingIn backingMax, nativeMax.amount)

/-- The value of the largest mint within both caps and the amounts that it takes, by mix. -/
def mintWithin (mix : Mix) (backingPrice nativePrice : Decimal) (backingMax nativeMax : Coin)
    (backingMaxValue nativeMaxValue : Decimal) : Result (Decimal × Nat × Nat) :=
  match mix with
  | .fullBacking => pure (backingMaxValue, backingMax.amount, 0)
  | .algorithmic => pure (nativeMaxValue, 0, nativeMax.amount)
  | .fractional ratio =>
    fractionalMint ratio backingPrice nativePrice backingMax nativeMax backingMaxValue
      nativeMaxValue

/-- The largest mint affordable within both caps. -/
def mintQuote (e : Engine) (backingMax nativeMax : Coin) (fullBacking : Bool) :
    Result MintQuote := do
  nativeMax.requireDenom nativeDenom
  e.requireMintPrice
  let denom := backingMax.denom
  let params ← e.backingParams denom
  let backingPrice ← e.price denom
  let nativePrice ← e.price nativeDenom
  let backingMaxValue ← backingMax.worth backingPrice
  let nativeMaxValue ← nativeMax.worth nativePrice
  let mix := Mix.of e.store.params.backingRatio fullBacking
  let (value, backingIn, nativeIn) ←
    mintWithin mix backingPrice nativePrice backingMax nativeMax backingMaxValue nativeMaxValue
  -- The whole value is minted at the peg, and the fee comes out of it.
  let mintTotal : Coin := ⟨stableDenom, ← value.payOutAt pegTarget⟩
  let pool := (← e.backing denom).pool
  params.requireMintCeiling (← pool.stableMinted.add mintTotal.amount)
  params.requireBackingCeiling (← pool.backing.add backingIn)
  let mintFee ← mintTotal.fee params.mintFee
  let mintOut ← mintTotal.sub mintFee.amount
  pure ⟨⟨denom, backingIn⟩, ⟨nativeDenom, nativeIn⟩, mintOut, mintFee⟩

end Stablecoin.Engine
