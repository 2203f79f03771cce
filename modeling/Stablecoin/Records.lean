import Stablecoin.Block
import Stablecoin.Coin
import Stablecoin.Principal.Basic

/-!
# Records

What the engine keeps for each backing asset, each collateral asset and each position, and the
totals over all of them.
-/
namespace Stablecoin

/-- Backing held in one asset, and the tokens issued and burned against it. -/
structure BackingPool where
  backing : Coin
  stableMinted : SignedCoin
  nativeBurned : SignedCoin
  deriving DecidableEq, Repr

/-- Tokens issued and burned against all backing. -/
structure BackingTotal where
  /-- The value of all pools, filled in by queries only. -/
  backingValue : Nat
  stableMinted : SignedCoin
  nativeBurned : SignedCoin
  deriving DecidableEq, Repr

/-- Collateral held in one asset, and the debt against it. -/
structure CollateralPool where
  collateral : Coin
  stableDebt : Coin
  nativeLocked : Coin
  deriving DecidableEq, Repr

/-- Debt against all collateral. -/
structure CollateralTotal where
  stableDebt : Coin
  nativeLocked : Coin
  deriving DecidableEq, Repr

/-- One user's collateral in one asset, and the debt against it. -/
structure Position where
  owner : Principal
  collateral : Coin
  /-- Principal plus accrued interest. -/
  stableDebt : Coin
  nativeLocked : Coin
  /-- The part of the debt that is interest not yet repaid. -/
  interest : Coin
  settledAt : Height
  deriving DecidableEq, Repr

/-- A position with the pool and the total that it is part of. -/
structure PositionRecords where
  total : CollateralTotal
  pool : CollateralPool
  position : Position
  deriving DecidableEq, Repr

namespace BackingPool

def empty (denom : Denom) : BackingPool :=
  ⟨.zero denom, .zero stableDenom, .zero nativeDenom⟩

end BackingPool

namespace BackingTotal

def empty : BackingTotal := ⟨0, .zero stableDenom, .zero nativeDenom⟩

end BackingTotal

namespace CollateralPool

def empty (denom : Denom) : CollateralPool :=
  ⟨.zero denom, .zero stableDenom, .zero nativeDenom⟩

end CollateralPool

namespace CollateralTotal

def empty : CollateralTotal := ⟨.zero stableDenom, .zero nativeDenom⟩

end CollateralTotal

namespace Position

/-- A position opened at a block, with nothing in it. -/
def opened (owner : Principal) (denom : Denom) (height : Height) : Position where
  owner := owner
  collateral := .zero denom
  stableDebt := .zero stableDenom
  nativeLocked := .zero nativeDenom
  interest := .zero stableDenom
  settledAt := height

end Position

end Stablecoin
