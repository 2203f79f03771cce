import Stablecoin.Ledger.Account

/-!
# Ledger operations

The movements of coins that a transaction asks the ledger for. Coins of amount zero are dropped
before a batch is applied, and so are movements that are left without coins.
-/
namespace Stablecoin

/-- One movement of coins. -/
inductive LedgerOp where
  | sendToModule (source : Principal) (module : String) (coins : List Coin)
  | sendToUser (module : String) (target : Principal) (coins : List Coin)
  | sendBetweenModules (source target : String) (coins : List Coin)
  | mint (module : String) (coins : List Coin)
  | burn (module : String) (coins : List Coin)
  deriving DecidableEq, Repr

namespace LedgerOp

def coins : LedgerOp → List Coin
  | sendToModule _ _ coins => coins
  | sendToUser _ _ coins => coins
  | sendBetweenModules _ _ coins => coins
  | mint _ coins => coins
  | burn _ coins => coins

/-- The same movement of other coins. -/
def withCoins (coins : List Coin) : LedgerOp → LedgerOp
  | sendToModule source module _ => sendToModule source module coins
  | sendToUser module target _ => sendToUser module target coins
  | sendBetweenModules source target _ => sendBetweenModules source target coins
  | mint module _ => mint module coins
  | burn module _ => burn module coins

/-- The movement without its zero coins, if any coin is left. -/
def dropZeros? (op : LedgerOp) : Option LedgerOp :=
  match op.coins.filter Coin.isPositive with
  | [] => none
  | coins => some (op.withCoins coins)

end LedgerOp

/-- A batch without zero coins and empty movements. -/
def dropZeros (ops : List LedgerOp) : List LedgerOp := ops.filterMap LedgerOp.dropZeros?

end Stablecoin
