import Stablecoin.Ledger.Operation
import Stablecoin.Rejection

/-!
# The ledger

Balances of accounts and the supply of each denomination. A batch of operations is applied as a
whole or not at all.
-/
namespace Stablecoin

/-- Balances and supplies; what is not listed is zero. -/
structure Ledger where
  balances : Table (Account × Denom) Nat
  supplies : Table Denom Nat
  deriving DecidableEq, Inhabited

/-- A denomination is made of ASCII letters, digits and slashes. -/
def validDenom (denom : Denom) : Bool :=
  let cs := denom.toList
  !cs.isEmpty && cs.all fun c => c.isAlphanum || c == '/'

namespace Ledger

def empty : Ledger := ⟨.empty, .empty⟩

/-- What an account holds of a denomination. -/
def balance (l : Ledger) (account : Account) (denom : Denom) : Nat :=
  (l.balances.get? (account, denom)).getD 0

/-- How much of a denomination exists. -/
def supply (l : Ledger) (denom : Denom) : Nat := (l.supplies.get? denom).getD 0

/-- Refuses a name that is not a denomination. -/
def requireDenom (denom : Denom) : Except LedgerError Unit :=
  if validDenom denom then pure () else throw (.invalidDenom denom)

def setBalance (l : Ledger) (account : Account) (denom : Denom) (amount : Nat) : Ledger :=
  { l with balances := l.balances.insert (account, denom) amount }

def setSupply (l : Ledger) (denom : Denom) (amount : Nat) : Ledger :=
  { l with supplies := l.supplies.insert denom amount }

def credit (l : Ledger) (account : Account) (coin : Coin) : Except LedgerError Ledger := do
  requireDenom coin.denom
  let balance := l.balance account coin.denom + coin.amount
  if balance < amountBound then pure (l.setBalance account coin.denom balance)
  else throw (.overflow coin)

def debit (l : Ledger) (account : Account) (coin : Coin) : Except LedgerError Ledger := do
  requireDenom coin.denom
  let balance := l.balance account coin.denom
  if coin.amount ≤ balance then pure (l.setBalance account coin.denom (balance - coin.amount))
  else throw (.insufficientFunds account coin balance)

/-- Counts a coin that comes into being. -/
def raiseSupply (l : Ledger) (coin : Coin) : Except LedgerError Ledger := do
  requireDenom coin.denom
  let supply := l.supply coin.denom + coin.amount
  if supply < amountBound then pure (l.setSupply coin.denom supply) else throw (.overflow coin)

/-- Counts a coin that ceases to be, down to zero at most. -/
def lowerSupply (l : Ledger) (coin : Coin) : Ledger :=
  match l.supplies.get? coin.denom with
  | some supply => l.setSupply coin.denom (supply - coin.amount)
  | none => l

def transferCoin (source target : Account) (l : Ledger) (coin : Coin) :
    Except LedgerError Ledger := do
  (← l.debit source coin).credit target coin

/-- Creates a coin in a module's account. -/
def mintCoin (module : String) (l : Ledger) (coin : Coin) : Except LedgerError Ledger := do
  (← l.raiseSupply coin).credit (.module module) coin

/-- Destroys a coin of a module's account. -/
def burnCoin (module : String) (l : Ledger) (coin : Coin) : Except LedgerError Ledger := do
  pure ((← l.debit (.module module) coin).lowerSupply coin)

/-- Carries out one operation, coin by coin. -/
def perform (l : Ledger) : LedgerOp → Except LedgerError Ledger
  | .sendToModule source module coins =>
    coins.foldlM (transferCoin (.user source) (.module module)) l
  | .sendToUser module target coins =>
    coins.foldlM (transferCoin (.module module) (.user target)) l
  | .sendBetweenModules source target coins =>
    coins.foldlM (transferCoin (.module source) (.module target)) l
  | .mint module coins => coins.foldlM (mintCoin module) l
  | .burn module coins => coins.foldlM (burnCoin module) l

/-- Carries out a batch; the first failure leaves no ledger. -/
def apply (l : Ledger) (ops : List LedgerOp) : Except LedgerError Ledger := ops.foldlM perform l

/-- Issues a coin to an account from outside. The supply is raised before the balance, and would
stay raised if the balance could not follow. -/
def fund (l : Ledger) (account : Account) (coin : Coin) : Except LedgerError Unit × Ledger :=
  match l.raiseSupply coin with
  | .error e => (.error e, l)
  | .ok raised =>
    match raised.credit account coin with
    -- Out of reach while no balance exceeds its supply.
    | .error e => (.error e, raised)
    | .ok funded => (.ok (), funded)

end Ledger

end Stablecoin
