import Stablecoin.Decimal.Fit

/-!
# Binary floating point of 64 bits

A finite binary64 number without its sign is `significand * 2 ^ exponent`. It has 53 bits, unless
the exponent is the least one. An exact result is rounded to the nearest such number, a half going
to the even neighbour, and a number is written by the fewest decimal digits that are rounded back
to it.
-/
namespace Stablecoin

/-- A finite number without sign. -/
structure Binary64 where
  significand : Nat
  exponent : Int
  deriving DecidableEq, Repr

namespace Binary64

/-- The least exponent. Numbers that have it may have fewer than 53 bits. -/
abbrev minExponent : Int := -1074

/-- The greatest exponent. -/
abbrev maxExponent : Int := 971

/-- `2 ^ 53`, which significands stay below. -/
abbrev significandBound : Nat := 0x20000000000000

/-- The value is this over `denominator`. -/
def numerator (x : Binary64) : Nat := x.significand <<< x.exponent.toNat

/-- The value is `numerator` over this. -/
def denominator (x : Binary64) : Nat := 1 <<< (-x.exponent).toNat

/-- Zero in the form that rounding gives it. -/
def zero : Binary64 := ⟨0, minExponent⟩

/-- `n / d`, counted in units of `2 ^ exponent`, as a fraction. -/
def inUnits (n d : Nat) (exponent : Int) : Nat × Nat :=
  (n <<< (-exponent).toNat, d <<< exponent.toNat)

/-- The exponent at which the number `n / d` has 53 bits before the point, if there is one. -/
def exponentOf (n d : Nat) : Int :=
  -- The value lies between `2 ^ (lower + 52)` and `2 ^ (lower + 54)`.
  let lower : Int := (n.log2 : Int) - d.log2 - 53
  let (n, d) := inUnits n d lower
  max minExponent (if n < d * significandBound then lower else lower + 1)

/-- The number nearest to `n / d`; none if that is beyond the largest one. -/
def nearest? (n d : Nat) : Option Binary64 :=
  if n = 0 then some zero
  else
    let exponent := exponentOf n d
    let (n, d) := inUnits n d exponent
    let significand := nearestEven n d
    let rounded : Binary64 :=
      if significand < significandBound then ⟨significand, exponent⟩
      else ⟨significand / 2, exponent + 1⟩
    if rounded.exponent ≤ maxExponent then some rounded else none

/-- The number nearest to the decimal `digits * 10 ^ exponent`. -/
def ofDecimal? (digits : Nat) (exponent : Int) : Option Binary64 :=
  nearest? (digits * tenPow exponent.toNat) (tenPow (-exponent).toNat)

def mul? (x y : Binary64) : Option Binary64 :=
  nearest? (x.numerator * y.numerator) (x.denominator * y.denominator)

def div? (x y : Binary64) : Option Binary64 :=
  nearest? (x.numerator * y.denominator) (x.denominator * y.numerator)

/-! ## Scaling by powers of ten -/

/-- The greatest power of ten that is a finite number. -/
abbrev maxTenPow : Nat := 308

/-- Multiplies by the number nearest to `10 ^ n`. -/
def mulTenPow? (x : Binary64) (n : Nat) : Option Binary64 :=
  if x = zero then some zero
  else if n ≤ maxTenPow then (ofDecimal? 1 n).bind x.mul?
  else none

/-- Divides by the number nearest to `10 ^ n`, in steps if that is not finite. -/
def divTenPow? (x : Binary64) (n : Nat) : Option Binary64 :=
  if n ≤ maxTenPow then (ofDecimal? 1 n).bind x.div?
  else if x = zero then some zero
  else (ofDecimal? 1 maxTenPow).bind fun unit =>
    (x.div? unit).bind fun quotient => quotient.divTenPow? (n - maxTenPow)
termination_by n
decreasing_by
  have : maxTenPow < n := Nat.not_le.mp (by assumption)
  exact Nat.sub_lt (by omega) (by decide)

/-- `digits * 10 ^ exponent` by two roundings, first that of the digits and then that of the product
or quotient. -/
def ofScientific? (digits : Nat) (exponent : Int) : Option Binary64 :=
  (nearest? digits 1).bind fun x =>
    if 0 ≤ exponent then x.mulTenPow? exponent.toNat else x.divTenPow? (-exponent).toNat

/-! ## The shortest decimal -/

/-- The least power of ten above the value of a number that is not zero. -/
def magnitude (x : Binary64) : Int :=
  let digitCount := fun n => ((Nat.toDigits 10 n).length : Int)
  if x.denominator ≤ x.numerator then digitCount (x.numerator / x.denominator)
  else 1 - digitCount (x.denominator / x.numerator)

/-- The multiple of `10 ^ exponent` that is nearest to a number, of those that are rounded to the
number. A half goes up. -/
def multipleOf? (x : Binary64) (exponent : Int) : Option Nat :=
  let n := x.numerator * tenPow (-exponent).toNat
  let d := x.denominator * tenPow exponent.toNat
  let below := n / d
  let nearer := if 2 * (n % d) < d then [below, below + 1] else [below + 1, below]
  nearer.find? fun digits => ofDecimal? digits exponent = some x

/-- The fewest digits, and the power of ten that they count, of which the number is the nearest.
Seventeen digits always suffice. -/
def shortest? (x : Binary64) : Option (Nat × Int) :=
  if x = zero then some (0, 0)
  else
    (List.range 18).findSome? fun count =>
      let exponent := x.magnitude - (count : Nat)
      (x.multipleOf? exponent).map fun digits => (digits, exponent)

end Binary64

end Stablecoin
