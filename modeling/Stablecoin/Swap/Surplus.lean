import Stablecoin.Engine.Basic

/-!
# Surplus backing

The value of all backing against what the backing ratio requires for the stable units minted by
swap.
-/
namespace Stablecoin.Engine

/-- The value of a list of pools on top of a value. -/
def addPoolValues (e : Engine) (value : Decimal) (pools : List BackingPool) : Result Decimal :=
  pools.foldlM (fun sum pool => do sum.add (← pool.backing.worth (← e.price pool.backing.denom)))
    value

/-- The value of every backing pool, disabled ones included. -/
def backingValue (e : Engine) : Result Nat := do
  (← e.addPoolValues 0 e.store.backingPools.values).payOut

/-- The backing that the backing ratio requires for a net amount of stable units. -/
def requiredBacking (e : Engine) (minted : Int) : Result Int := do
  let required ← (← Decimal.ofCounter minted).mul e.store.params.backingRatio
  pure (max required.ceil 0)

/-- The backing value above what is required, negative when backing is short. -/
def excessBacking (e : Engine) : Result Int :=
  match e.store.backingTotal with
  | none => reject (.backingNotFound "total backing")
  | some total => do
    let required ← e.requiredBacking total.stableMinted.amount
    let held ← e.backingValue
    pure (held - required)

/-- How much native token the missing backing is worth, negative when there is a surplus. -/
def availableReback (e : Engine) (nativePrice : Decimal) : Result Decimal := do
  (← Decimal.ofCounter (-(← e.excessBacking))).div nativePrice

end Stablecoin.Engine
