import Stablecoin.Block
import Stablecoin.Coin
import Stablecoin.Decimal.Basic
import Stablecoin.Principal.Basic

/-!
# Events

What the engine records of each operation that changed something, oldest first.
-/
namespace Stablecoin

/-- One recorded operation. `coinIn` is what the engine took and `coinOut` what it gave, less the
fee. -/
inductive Event where
  | mintBySwap (sender receiver : Principal) (coinIn : List Coin) (coinOut fee : Coin)
  | burnBySwap (sender receiver : Principal) (coinIn : Coin) (coinOut : List Coin) (fee : Coin)
  | buyBacking (sender receiver : Principal) (coinIn coinOut fee : Coin)
  | sellBacking (sender receiver : Principal) (coinIn coinOut fee : Coin)
  | mintByCollateral (sender receiver : Principal) (coinOut fee : Coin)
  | burnByCollateral (sender : Principal) (denom : Denom) (coinIn fee : Coin)
  | depositCollateral (sender receiver : Principal) (coinIn : List Coin)
  | redeemCollateral (sender receiver : Principal) (coinOut : List Coin)
  | liquidateCollateral (sender receiver debtor : Principal) (coinIn coinOut fee : Coin)
  | registerBacking (denom : Denom) (enabled : Bool)
  | registerCollateral (denom : Denom) (enabled : Bool)
  | setParams
  | adjustBackingRatio (backingRatio : Decimal) (height : Height)
  deriving DecidableEq, Repr

namespace Event

/-- The name under which an event is logged. -/
def name : Event → String
  | mintBySwap .. => "mint_by_swap"
  | burnBySwap .. => "burn_by_swap"
  | buyBacking .. => "buy_backing"
  | sellBacking .. => "sell_backing"
  | mintByCollateral .. => "mint_by_collateral"
  | burnByCollateral .. => "burn_by_collateral"
  | depositCollateral .. => "deposit_collateral"
  | redeemCollateral .. => "redeem_collateral"
  | liquidateCollateral .. => "liquidate_collateral"
  | registerBacking .. => "register_backing"
  | registerCollateral .. => "register_collateral"
  | setParams => "set_params"
  | adjustBackingRatio .. => "adjust_backing_ratio"

end Event

/-- The recorded events, oldest first. -/
abbrev EventLog := List Event

namespace EventLog

def record (log : EventLog) (event : Event) : EventLog := log ++ [event]

/-- At most `length` events from the one at `start` on. -/
def slice (log : EventLog) (start length : Nat) : List Event := (log.drop start).take length

end EventLog

end Stablecoin
