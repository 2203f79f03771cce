import Stablecoin.Params
import Stablecoin.Records

/-!
# How value splits between backing and native token

Also the ceilings that a backing asset's risk parameters put on its pool.
-/
namespace Stablecoin

/-- How minted or burned value splits. -/
inductive Mix where
  | fullBacking
  | algorithmic
  | fractional (ratio : Decimal)
  deriving DecidableEq, Repr

namespace Mix

/-- The mix at a backing ratio; `forced` asks for backing alone. -/
def of (ratio : Decimal) (forced : Bool) : Mix :=
  if forced ∨ 1 ≤ ratio then fullBacking
  else if ratio ≤ 0 then algorithmic
  else fractional ratio

end Mix

namespace BackingParams

/-- Refuses a pool whose stable units exceed their ceiling. -/
def requireMintCeiling (params : BackingParams) (minted : SignedCoin) : Result Unit :=
  match params.maxStableMint with
  | some ceiling => require (minted.exceeds ceiling = false) (.stableCeiling minted ceiling)
  | none => pure ()

/-- Refuses a pool whose backing exceeds its ceiling. -/
def requireBackingCeiling (params : BackingParams) (backing : Coin) : Result Unit :=
  match params.maxBacking with
  | some ceiling => require (backing.amount ≤ ceiling) (.backingCeiling backing ceiling)
  | none => pure ()

end BackingParams

end Stablecoin
