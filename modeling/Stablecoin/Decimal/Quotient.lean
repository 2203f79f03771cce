import Stablecoin.Decimal.Fit

/-!
# Quotients of decimals

Long division that produces up to nine digits a round. It ends when the division comes out even at
a scale that is not negative, or when no further digit fits, with a last rounding to nearest. Ties
go to even, except after digits that left the range behind a divisor of more than 64 bits. A
quotient that took a remainder along then sheds trailing zeros by a fixed sequence of tests, which
leaves some of them in place.

The scale starts at −28 or above, grows in every round but the last and ends at 28 or below, so
fifty-eight rounds always suffice.
-/
namespace Stablecoin.Decimal

/-- A division under way: `quotient / 10 ^ scale` so far, with `remainder` still to divide.
`inexact` records that a remainder was ever carried into a round. -/
structure LongDivision where
  quotient : Nat
  remainder : Nat
  scale : Int
  inexact : Bool
  deriving DecidableEq, Repr

namespace LongDivision

/-- The number of digits, nine at most, by which the quotient can grow within the ranges of
coefficient and scale. -/
def room (quotient : Nat) (scale : Int) : Nat :=
  ([9, 8, 7, 6, 5, 4, 3, 2, 1].find? fun digits : Nat =>
    quotient * tenPow digits < coefficientBound ∧ scale + digits ≤ maxScale).getD 0

/-- The quotient rounded by what is left, when no digit fits any more. A carry out of range costs
one digit. -/
def roundOff (divisor : Nat) (state : LongDivision) : Option LongDivision :=
  if divisor < 2 * state.remainder ∨
      (2 * state.remainder = divisor ∧ state.quotient % 2 = 1) then
    if state.quotient + 1 < coefficientBound then
      some { state with quotient := state.quotient + 1 }
    else if state.scale ≤ 0 then none
    else some { state with quotient := halfEven coefficientBound 1, scale := state.scale - 1 }
  else some state

/-- The quotient with its last digit rounded away to nearest, when the digits just gained left the
range. A half goes to the even neighbour, but up if the divisor has more than 64 bits. -/
def dropLast (divisor : Nat) (state : LongDivision) : Option LongDivision :=
  if state.scale ≤ 0 then none
  else
    let kept := state.quotient / 10
    let digit := state.quotient % 10
    let halfUp := state.remainder ≠ 0 ∨ kept % 2 = 1 ∨ 0x10000000000000000 ≤ divisor
    let up := 5 < digit ∨ (digit = 5 ∧ halfUp)
    some { state with quotient := if up then kept + 1 else kept, scale := state.scale - 1 }

/-- `digits` more digits of the quotient. -/
def extend (divisor digits : Nat) (state : LongDivision) : LongDivision where
  quotient := state.quotient * tenPow digits + state.remainder * tenPow digits / divisor
  remainder := state.remainder * tenPow digits % divisor
  scale := state.scale + digits
  inexact := state.inexact

/-- The finished division, or none when the quotient is out of range. -/
def run (divisor : Nat) : Nat → LongDivision → Option LongDivision
  | 0, _ => none
  | rounds + 1, state =>
    if state.remainder = 0 then
      if 0 ≤ state.scale then some state
      else
        -- The division came out even before the point: only zeros are missing.
        let digits : Nat := min 9 (-state.scale).toNat
        if state.quotient * tenPow digits < coefficientBound then
          run divisor rounds (state.extend divisor digits)
        else none
    else
      let state : LongDivision := { state with inexact := true }
      let digits := room state.quotient state.scale
      -- Fewer than nine digits fit and the scale stays negative: the quotient is too large.
      if digits < 9 ∧ state.scale + digits < 0 then none
      else if digits = 0 then state.roundOff divisor
      else
        let next := state.extend divisor digits
        if next.quotient < coefficientBound then run divisor rounds next
        else next.dropLast divisor

/-- One test for trailing zeros: `digits` of them go if the quotient is also a multiple of
`factor` and the scale has that many digits. -/
def shed (state : LongDivision) (factor digits : Nat) : LongDivision :=
  if state.quotient % factor = 0 ∧ digits ≤ state.scale ∧
      state.quotient % tenPow digits = 0 then
    { state with quotient := state.quotient / tenPow digits, scale := state.scale - digits }
  else state

/-- The tests for trailing zeros, eight at a time, then four, two and one. Eight are only looked
for behind a multiple of `2 ^ 32`. -/
def shedZeros (state : LongDivision) : LongDivision :=
  [(0x100000000, 8), (0x100000000, 8), (0x100000000, 8), (16, 4), (4, 2), (2, 1)].foldl
    (fun s t => s.shed t.1 t.2) state

end LongDivision

/-- The quotient, or none if the divisor is zero or the quotient out of range. -/
def div? (a b : Decimal) : Option Decimal :=
  if b.isZero then none
  else if a.isZero then some 0
  else do
    let dividend := a.coefficient.natAbs
    let divisor := b.coefficient.natAbs
    let start : LongDivision :=
      ⟨dividend / divisor, dividend % divisor, (a.scale : Int) - b.scale, false⟩
    let done ← LongDivision.run divisor 58 start
    let done := if done.inexact then done.shedZeros else done
    ofParts? (a.coefficient.sign * b.coefficient.sign * done.quotient) done.scale.toNat

end Stablecoin.Decimal
