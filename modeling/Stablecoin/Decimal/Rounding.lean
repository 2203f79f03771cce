import Stablecoin.Decimal.Basic

/-!
# Rounding a decimal to an integer

Three directions are in use: up for amounts paid in, toward zero for amounts paid out, and to
nearest with ties away from zero for fees.
-/
namespace Stablecoin.Decimal

def truncate (d : Decimal) : Int := d.coefficient.tdiv (tenPow d.scale)

def ceil (d : Decimal) : Int := -((-d.coefficient).fdiv (tenPow d.scale))

/-- The nearest integer, a half going away from zero. -/
def roundHalfUp (d : Decimal) : Int :=
  d.coefficient.sign * ((2 * d.coefficient.natAbs + tenPow d.scale) / (2 * tenPow d.scale) : Nat)

end Stablecoin.Decimal
