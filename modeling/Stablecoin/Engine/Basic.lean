import Stablecoin.Event
import Stablecoin.Fee
import Stablecoin.Ledger.Basic
import Stablecoin.PriceTable
import Stablecoin.Store

/-!
# The engine

The engine's state, and how an operation looks up the records and prices it works with. Looking up
never changes anything.
-/
namespace Stablecoin

/-- The module accounts that the engine uses. -/
structure ModuleAccounts where
  /-- Holds backing, collateral and tokens on their way. -/
  module : String
  /-- Receives every fee. -/
  feeCollector : String
  deriving DecidableEq, Repr

namespace ModuleAccounts

def initial : ModuleAccounts := ⟨"maker", "oracle"⟩

end ModuleAccounts

structure Engine where
  store : Store
  prices : PriceTable
  ledger : Ledger
  accounts : ModuleAccounts
  height : Height
  events : EventLog
  deriving DecidableEq

def Coin.requireDenom (c : Coin) (expected : Denom) : Result Unit :=
  require (c.denom = expected) (.wrongDenom expected c.denom)

/-- The value of a coin at a price. -/
def Coin.worth (c : Coin) (price : Decimal) : Result Decimal := do
  (← c.toDecimal).mul price

/-- What a caller has to pay in coins of a price for a value. -/
def Decimal.payInAt (value price : Decimal) : Result Nat := do
  (← value.div price).payIn

/-- What is paid out in coins of a price for a value. -/
def Decimal.payOutAt (value price : Decimal) : Result Nat := do
  (← value.div price).payOut

namespace Engine

/-- An engine with parameters, prices, a ledger and no history. -/
def new (store : Store) (prices : PriceTable) (ledger : Ledger) (accounts : ModuleAccounts) :
    Engine :=
  ⟨store, prices, ledger, accounts, 0, []⟩

/-- The price of a denomination, refused unless it is positive. -/
def price (e : Engine) (denom : Denom) : Result Decimal := e.prices.price denom

/-- Refuses to mint by swap while the stable unit trades below the peg. -/
def requireMintPrice (e : Engine) : Result Unit := do
  Stablecoin.requireMintPrice (← e.prices.quoted stableDenom) e.store.params.mintPriceBias

/-- Refuses to burn by swap while the stable unit trades above the peg. -/
def requireBurnPrice (e : Engine) : Result Unit := do
  Stablecoin.requireBurnPrice (← e.prices.quoted stableDenom) e.store.params.burnPriceBias

/-- The risk parameters of an enabled backing asset. -/
def backingParams (e : Engine) (denom : Denom) : Result BackingParams :=
  match e.store.backingParams.get? denom with
  | none => reject (.backingNotFound denom)
  | some params => do
    require (params.enabled = true) (.backingDisabled denom)
    pure params

/-- The risk parameters of an enabled collateral asset. -/
def collateralParams (e : Engine) (denom : Denom) : Result CollateralParams :=
  match e.store.collateralParams.get? denom with
  | none => reject (.collateralNotFound denom)
  | some params => do
    require (params.enabled = true) (.collateralDisabled denom)
    pure params

/-- The pool of a backing asset and the total. -/
def backing (e : Engine) (denom : Denom) : Result BackingRecords :=
  match e.store.backingTotal, e.store.backingPools.get? denom with
  | some total, some pool => pure ⟨total, pool⟩
  | _, _ => reject (.backingNotFound denom)

/-- A position with its pool and the total. A missing position is opened empty if `mayOpen`. -/
def position (e : Engine) (owner : Principal) (denom : Denom) (mayOpen : Bool) :
    Result PositionRecords :=
  match e.store.collateralTotal, e.store.collateralPools.get? denom with
  | some total, some pool =>
    match e.store.positions.get? (owner, denom) with
    | some position => pure ⟨total, pool, position⟩
    | none =>
      if mayOpen then pure ⟨total, pool, .opened owner denom e.height⟩
      else reject (.noPosition denom)
  | _, _ => reject (.collateralNotFound denom)

/-- What the module account holds of a denomination. -/
def moduleBalance (e : Engine) (denom : Denom) : Nat :=
  e.ledger.balance (.module e.accounts.module) denom

end Engine

end Stablecoin
