import Stablecoin.Decimal.Arithmetic
import Stablecoin.Decimal.Quotient
import Stablecoin.Decimal.Rounding
import Stablecoin.Decimal.Text
import Stablecoin.Rejection

/-!
# Checked arithmetic

Arithmetic whose results are refused when they leave the range of decimals or amounts. Amounts that
a caller pays in are rounded up, amounts paid out are truncated, and fees are rounded to nearest
with a half going up.
-/
namespace Stablecoin

namespace Decimal

def mul (a b : Decimal) : Result Decimal := orOverflow (a.mul? b)

/-- The quotient, refused out of range or for a zero divisor. -/
def div (a b : Decimal) : Result Decimal := orOverflow (a.div? b)

def add (a b : Decimal) : Result Decimal := orOverflow (a.add? b)

/-- A sum relied on to be in range. -/
def addTrusted (a b : Decimal) : Result Decimal :=
  match a.add? b with
  | some sum => pure sum
  | none => .error (.faulted .additionOverflowed)

/-- A difference relied on to be in range. -/
def subTrusted (a b : Decimal) : Result Decimal :=
  match a.sub? b with
  | some difference => pure difference
  | none => .error (.faulted .subtractionOverflowed)

def ofAmount (n : Nat) : Result Decimal := orOverflow (ofInt? n)

def ofCounter (n : Int) : Result Decimal := orOverflow (ofInt? n)

end Decimal

/-- An integer as an amount, refused below zero. -/
def amountOf (n : Int) : Result Nat :=
  if 0 ≤ n then pure n.toNat else reject (.negativeAmount (toString n))

namespace Decimal

/-- What a caller has to pay for a value. -/
def payIn (d : Decimal) : Result Nat := amountOf d.ceil

/-- What is paid out for a value. -/
def payOut (d : Decimal) : Result Nat := amountOf d.truncate

/-- What is charged for a value of fee or interest. -/
def charge (d : Decimal) : Result Nat := amountOf d.roundHalfUp

end Decimal

namespace Coin

/-- A larger amount, refused out of range. -/
def add (c : Coin) (n : Nat) : Result Coin :=
  if c.amount + n < amountBound then pure { c with amount := c.amount + n } else reject .overflow

/-- A smaller amount, refused below zero. -/
def sub (c : Coin) (n : Nat) : Result Coin :=
  if n ≤ c.amount then pure { c with amount := c.amount - n }
  else reject (.negativeAmount (c.text ++ " - " ++ toString n ++ c.denom))

def toDecimal (c : Coin) : Result Decimal := Decimal.ofAmount c.amount

end Coin

namespace SignedCoin

/-- A counter moved by `delta`, refused out of range. -/
def move (c : SignedCoin) (delta : Int) : Result SignedCoin :=
  let amount := c.amount + delta
  if delta.natAbs < counterBound ∧ -counterBound ≤ amount ∧ amount < counterBound then
    pure { c with amount }
  else reject .overflow

def add (c : SignedCoin) (n : Nat) : Result SignedCoin := c.move n

def sub (c : SignedCoin) (n : Nat) : Result SignedCoin := c.move (-n)

end SignedCoin

end Stablecoin
