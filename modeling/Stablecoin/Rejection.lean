import Stablecoin.Ledger.Account

/-!
# Why a request is not carried out

A request is rejected for a stated cause; the wording of each cause is in one function. Apart from
rejections, an operation can fault: it relied on a sum or difference to stay in the range of
decimals, and it did not.
-/
namespace Stablecoin

inductive LedgerError where
  | insufficientFunds (account : Account) (required : Coin) (balance : Nat)
  | invalidDenom (denom : Denom)
  | overflow (coin : Coin)
  deriving DecidableEq, Repr

/-- Why a denomination has no usable price. -/
structure PriceError where
  denom : Denom
  reason : String
  deriving DecidableEq, Repr

inductive Rejection where
  | backingNotFound (denom : Denom)
  | backingDisabled (denom : Denom)
  | collateralNotFound (denom : Denom)
  | collateralDisabled (denom : Denom)
  | invalidParams (reason : String)
  | wrongDenom (expected actual : Denom)
  | price (error : PriceError)
  | stablePriceTooLow (price lowerBound : String)
  | stablePriceTooHigh (price upperBound : String)
  | slippage (actual limit : Coin)
  | stableCeiling (minted : SignedCoin) (ceiling : Nat)
  | backingCeiling (backing : Coin) (ceiling : Nat)
  | collateralCeiling (collateral : Coin) (ceiling : Nat)
  | backingInsufficient (requested available : String)
  | nativeInsufficient (requested available : String)
  | collateralInsufficient (requested available : Coin)
  | debtAboveLimit (debt maxDebt : String)
  | noPosition (denom : Denom)
  | noDebt (denom : Denom)
  | notLiquidatable (debtValue liquidationValue : String)
  | ledger (error : LedgerError)
  | overflow
  | negativeAmount (value : String)
  deriving DecidableEq, Repr

/-- An operation on decimals that left their range where it was relied on not to. -/
inductive Fault where
  | additionOverflowed
  | subtractionOverflowed
  deriving DecidableEq, Repr

/-- Why an operation does not return a value. -/
inductive Failure where
  | rejected (cause : Rejection)
  | faulted (fault : Fault)
  deriving DecidableEq, Repr

/-- A value, or why there is none. -/
abbrev Result := Except Failure

def reject {α : Type} (cause : Rejection) : Result α := .error (.rejected cause)

def require (condition : Prop) [Decidable condition] (cause : Rejection) : Result Unit :=
  if condition then pure () else reject cause

/-- The value, or a refusal because there is none in range. -/
def orOverflow {α : Type} : Option α → Result α
  | some value => pure value
  | none => reject .overflow

namespace LedgerError

def message : LedgerError → String
  | insufficientFunds account required balance =>
    "insufficient funds in " ++ account.text ++ ": required " ++ required.text ++
      ", balance " ++ toString balance
  | invalidDenom denom => "invalid denomination: '" ++ denom ++ "'"
  | overflow coin => "balance overflow adding " ++ coin.text

end LedgerError

namespace PriceError

def message (e : PriceError) : String :=
  "exchange rate unavailable for " ++ e.denom ++ ": " ++ e.reason

end PriceError

namespace Rejection

def message : Rejection → String
  | backingNotFound denom => "backing coin denomination not found: " ++ denom
  | backingDisabled denom => "backing coin disabled: " ++ denom
  | collateralNotFound denom => "collateral coin denomination not found: " ++ denom
  | collateralDisabled denom => "collateral coin disabled: " ++ denom
  | invalidParams reason => "invalid params: " ++ reason
  | wrongDenom expected actual =>
    "invalid denomination: expected " ++ expected ++ ", got " ++ actual
  | price error => error.message
  | stablePriceTooLow actual lowerBound =>
    stableDenom ++ " price too low: " ++ actual ++ " < " ++ lowerBound
  | stablePriceTooHigh actual upperBound =>
    stableDenom ++ " price too high: " ++ actual ++ " > " ++ upperBound
  | slippage actual limit => "over slippage: " ++ actual.text ++ " exceeds limit " ++ limit.text
  | stableCeiling minted ceiling =>
    "war ceiling exceeded: " ++ minted.text ++ " > " ++ toString ceiling
  | backingCeiling backing ceiling =>
    "backing ceiling exceeded: " ++ backing.text ++ " > " ++ toString ceiling
  | collateralCeiling collateral ceiling =>
    "collateral ceiling exceeded: " ++ collateral.text ++ " > " ++ toString ceiling
  | backingInsufficient requested available =>
    "backing coin insufficient: requested " ++ requested ++ ", available " ++ available
  | nativeInsufficient requested available =>
    "mage coin insufficient: requested " ++ requested ++ ", available " ++ available
  | collateralInsufficient requested available =>
    "collateral coin insufficient: requested " ++ requested.text ++ ", available " ++ available.text
  | debtAboveLimit debt maxDebt =>
    "account has insufficient collateral: debt " ++ debt ++ " > max debt " ++ maxDebt
  | noPosition denom => "account has no collateral: " ++ denom
  | noDebt denom => "account has no debt: " ++ denom
  | notLiquidatable debtValue liquidationValue =>
    "account not undercollateralized: debt value " ++ debtValue ++ " < liquidation value " ++
      liquidationValue
  | ledger error => error.message
  | overflow => "arithmetic overflow"
  | negativeAmount value => "negative amount: " ++ value

end Rejection

namespace Fault

def message : Fault → String
  | additionOverflowed => "Addition overflowed"
  | subtractionOverflowed => "Subtraction overflowed"

end Fault

end Stablecoin
