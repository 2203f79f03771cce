import Stablecoin.Decimal.Basic

/-!
# Fitting an exact result into a decimal

Products and sums are computed exactly and then fitted: of the scales at which the value, rounded
to nearest with ties to the even neighbour, has a coefficient in range, the largest is taken.
-/
namespace Stablecoin

/-- `n / unit` to the nearest integer, a half going to the even neighbour. -/
def nearestEven (n unit : Nat) : Nat :=
  let quotient := n / unit
  let rest := n % unit
  if unit < 2 * rest ∨ (2 * rest = unit ∧ quotient % 2 = 1) then quotient + 1 else quotient

/-- `n / 10 ^ k` to the nearest integer, a half going to the even neighbour. -/
def halfEven (n k : Nat) : Nat := nearestEven n (tenPow k)

namespace Decimal

/-- `n / 10 ^ scale` with `dropped` digits rounded away, if that is in range. -/
def dropDigits? (n : Int) (scale dropped : Nat) : Option Decimal :=
  ofParts? (n.sign * halfEven n.natAbs dropped) (scale - dropped)

/-- `n / 10 ^ scale` with as few digits rounded away as the range allows; none if even the
integer part is out of range. -/
def fit? (n : Int) (scale : Nat) : Option Decimal :=
  (List.range' (scale - maxScale) (scale + 1 - (scale - maxScale))).findSome?
    (dropDigits? n scale)

end Decimal

end Stablecoin
