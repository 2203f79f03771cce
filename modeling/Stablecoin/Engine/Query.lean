import Stablecoin.Collateral.Debt
import Stablecoin.Engine.Governance
import Stablecoin.Swap.Buyback
import Stablecoin.Swap.Mint
import Stablecoin.Swap.Reback

/-!
# Queries and estimates

Views of the engine's records, and what a request would answer if it were made now. Nothing here
changes the engine, so an estimate leaves out what only carrying a request out would check.
-/
namespace Stablecoin

/-- The backing ratio and the block of its last adjustment. -/
structure BackingRatioResponse where
  backingRatio : Decimal
  lastUpdateBlock : Height
  deriving DecidableEq, Repr

namespace Engine

def backingRatio (e : Engine) : BackingRatioResponse :=
  ⟨e.store.params.backingRatio, e.store.ratioAdjustedAt⟩

/-- The pool of a backing asset. -/
def backingPool (e : Engine) (denom : Denom) : Result BackingPool :=
  match e.store.backingPools.get? denom with
  | some pool => pure pool
  | none => reject (.backingNotFound denom)

/-- The pool of a collateral asset. -/
def collateralPool (e : Engine) (denom : Denom) : Result CollateralPool :=
  match e.store.collateralPools.get? denom with
  | some pool => pure pool
  | none => reject (.collateralNotFound denom)

/-- The position of an owner, empty if a registered asset was never deposited. -/
def positionOf (e : Engine) (owner : Principal) (denom : Denom) : Result Position :=
  match e.store.collateralParams.get? denom with
  | none => reject (.collateralNotFound denom)
  | some _ =>
    pure ((e.store.positions.get? (owner, denom)).getD (.opened owner denom e.height))

/-- The total of all backing, valued at current prices. -/
def backingTotal (e : Engine) : Result BackingTotal := do
  pure { e.store.backingTotal.getD .empty with backingValue := ← e.backingValue }

def collateralTotal (e : Engine) : CollateralTotal := e.store.collateralTotal.getD .empty

def estimateMint (e : Engine) (r : MintRequest) : Result MintQuote :=
  e.mintQuote r.backingInMax r.nativeInMax r.fullBacking

def estimateBurn (e : Engine) (r : BurnRequest) : Result BurnQuote :=
  e.burnQuote r.burnIn r.backingOutMin.denom

def estimateBuyback (e : Engine) (r : BuybackRequest) : Result BuybackQuote :=
  e.buybackQuote r.nativeIn r.backingOutMin.denom

def estimateReback (e : Engine) (r : RebackRequest) : Result RebackQuote :=
  e.rebackQuote r.backingIn

def estimateBorrow (e : Engine) (sender : Principal) (r : BorrowRequest) :
    Result BorrowResponse := do
  pure ⟨(← e.afterBorrow sender r.denom r.mintOut).1⟩

end Engine

end Stablecoin
