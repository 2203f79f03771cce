import Stablecoin.Decimal.Fit

/-!
# Sums and products of decimals

Each operation is exact where the range allows it, and fitted otherwise. None is returned when the
result is out of range.
-/
namespace Stablecoin.Decimal

/-- The exact product fitted into range. A product with zero is plain zero; so is a product of two
coefficients below `2 ^ 32` whose scales add up to more than 47, since none of its digits would
remain. -/
def mul? (a b : Decimal) : Option Decimal :=
  if a.isZero ∨ b.isZero then some 0
  else if a.coefficient.natAbs < 0x100000000 ∧ b.coefficient.natAbs < 0x100000000 ∧
      47 < a.scale + b.scale then
    some 0
  else fit? (a.coefficient * b.coefficient) (a.scale + b.scale)

/-- The exact sum fitted into range at the larger scale. A zero operand yields the other one
unchanged. -/
def add? (a b : Decimal) : Option Decimal :=
  if a.isZero then some b
  else if b.isZero then some a
  else
    let scale := a.commonScale b
    fit? (a.coefficientAt scale + b.coefficientAt scale) scale

def sub? (a b : Decimal) : Option Decimal := a.add? (-b)

end Stablecoin.Decimal
