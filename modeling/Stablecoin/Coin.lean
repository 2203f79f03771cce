/-!
# Coins

An amount of one denomination. Amounts are counted in the smallest unit of the denomination and
never negative; a signed coin is a net counter that may go below zero.
-/
namespace Stablecoin

/-- The name of a token's smallest unit. -/
abbrev Denom := String

/-- The stable token that the engine issues. -/
def stableDenom : Denom := "uusw"

/-- The native token that absorbs the risk of the stable one. -/
def nativeDenom : Denom := "amage"

/-- Amounts are smaller than `2 ^ 128`. -/
abbrev amountBound : Nat := 0x100000000000000000000000000000000

/-- Net counters are smaller than `2 ^ 127`, and the least of them is `-counterBound`. -/
abbrev counterBound : Nat := 0x80000000000000000000000000000000

/-- An amount of one denomination. -/
structure Coin where
  denom : Denom
  amount : Nat
  deriving DecidableEq, Repr, Inhabited

/-- A net amount of one denomination. -/
structure SignedCoin where
  denom : Denom
  amount : Int
  deriving DecidableEq, Repr, Inhabited

namespace Coin

def zero (denom : Denom) : Coin := ⟨denom, 0⟩

def isZero (c : Coin) : Bool := c.amount == 0

def isPositive (c : Coin) : Bool := 0 < c.amount

def text (c : Coin) : String := toString c.amount ++ c.denom

end Coin

namespace SignedCoin

def zero (denom : Denom) : SignedCoin := ⟨denom, 0⟩

/-- A negative counter never exceeds a ceiling. -/
def exceeds (c : SignedCoin) (ceiling : Nat) : Bool := (ceiling : Int) < c.amount

def text (c : SignedCoin) : String := toString c.amount ++ c.denom

end SignedCoin

end Stablecoin
