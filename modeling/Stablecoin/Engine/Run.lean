import Stablecoin.Engine.Governance
import Stablecoin.Engine.Transact

/-!
# Runs

Everything that can happen to an engine, one action after the other: governance, blocks, prices
reported from outside, coins issued from outside, and requests of users. What an action refuses is
part of the run too, and then leaves the engine as its receipt says.
-/
namespace Stablecoin

/-- One thing that can happen to an engine. -/
inductive Action where
  | setParams (params : Params)
  | registerBacking (params : BackingParams)
  | registerCollateral (params : CollateralParams)
  | beginBlock (height : Height)
  | endBlock (adjust : RatioInput → Option Decimal)
  | setRate (denom : Denom) (rate : Decimal)
  | removeRate (denom : Denom)
  | fund (account : Account) (coin : Coin)
  | transact (sender : Principal) (request : Request)

namespace Engine

def setRate (e : Engine) (denom : Denom) (rate : Decimal) : Engine :=
  { e with prices := e.prices.insert denom rate }

def removeRate (e : Engine) (denom : Denom) : Engine :=
  { e with prices := e.prices.erase denom }

/-- A coin is issued to an account from outside. -/
def fund (e : Engine) (account : Account) (coin : Coin) : Except LedgerError Unit × Engine :=
  let (result, ledger) := e.ledger.fund account coin
  (result, { e with ledger })

/-- A batch is given to the ledger from outside. -/
def applyBatch (e : Engine) (ops : List LedgerOp) : Except LedgerError Engine := do
  pure { e with ledger := ← e.ledger.apply ops }

def act (e : Engine) : Action → Engine
  | .setParams params => (e.setParams params).engine
  | .registerBacking params => (e.registerBacking params).engine
  | .registerCollateral params => (e.registerCollateral params).engine
  | .beginBlock height => e.beginBlock height
  | .endBlock adjust => (e.endBlock adjust).engine
  | .setRate denom rate => e.setRate denom rate
  | .removeRate denom => e.removeRate denom
  | .fund account coin => (e.fund account coin).2
  | .transact sender request => (e.transact sender request).engine

def run (e : Engine) (actions : List Action) : Engine := actions.foldl act e

/-- An engine without records, balances and prices. -/
def fresh (params : Params) (accounts : ModuleAccounts) : Engine :=
  .new (.new params) .empty .empty accounts

@[simp] theorem run_nil (e : Engine) : e.run [] = e := rfl

@[simp] theorem run_cons (e : Engine) (action : Action) (rest : List Action) :
    e.run (action :: rest) = (e.act action).run rest := rfl

theorem run_append (e : Engine) (first second : List Action) :
    e.run (first ++ second) = (e.run first).run second :=
  List.foldl_append

end Engine

end Stablecoin
