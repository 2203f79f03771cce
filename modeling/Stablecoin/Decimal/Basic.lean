/-!
# Decimals

A decimal is an integer coefficient over a power of ten. The coefficient stays below `2 ^ 96` in
magnitude and the scale, the number of digits after the point, at most 28. The same value can be
held at several scales: `=` tells those apart, while the order and `==` look at the value only.
-/
namespace Stablecoin

def tenPow (n : Nat) : Nat := Nat.pow 10 n

@[simp] theorem tenPow_zero : tenPow 0 = 1 := rfl

theorem tenPow_succ (n : Nat) : tenPow (n + 1) = tenPow n * 10 := rfl

theorem tenPow_pos (n : Nat) : 0 < tenPow n := Nat.pow_pos (by decide)

theorem tenPow_add (m n : Nat) : tenPow (m + n) = tenPow m * tenPow n := Nat.pow_add 10 m n

/-- Coefficients are smaller than `2 ^ 96` in magnitude. -/
abbrev Decimal.coefficientBound : Nat := 0x1000000000000000000000000

/-- The most digits after the point. -/
abbrev Decimal.maxScale : Nat := 28

/-- The value `coefficient / 10 ^ scale`. -/
structure Decimal where
  coefficient : Int
  scale : Nat
  coefficient_lt : coefficient.natAbs < Decimal.coefficientBound := by decide
  scale_le : scale ≤ Decimal.maxScale := by decide
  deriving DecidableEq, Repr

namespace Decimal

/-- The decimal with these parts, if they are in range. -/
def ofParts? (coefficient : Int) (scale : Nat) : Option Decimal :=
  if h : coefficient.natAbs < coefficientBound ∧ scale ≤ maxScale then
    some ⟨coefficient, scale, h.1, h.2⟩
  else none

/-- Integers have scale zero. -/
def ofInt? (n : Int) : Option Decimal := ofParts? n 0

/-- A decimal of few digits, which is always in range. -/
def ofSmall (digits : UInt32) (scale : Fin 29) : Decimal where
  coefficient := digits.toNat
  scale := scale
  coefficient_lt := by
    have := digits.toNat_lt
    simp only [Int.natAbs_natCast, coefficientBound]
    omega
  scale_le := Nat.le_of_lt_succ scale.isLt

instance : OfNat Decimal 0 := ⟨{ coefficient := 0, scale := 0 }⟩
instance : OfNat Decimal 1 := ⟨{ coefficient := 1, scale := 0 }⟩
instance : Inhabited Decimal := ⟨0⟩

/-- The exact value. -/
def toRat (d : Decimal) : Rat := mkRat d.coefficient (tenPow d.scale)

/-- The coefficient that the same value has at a scale not below its own. -/
def coefficientAt (d : Decimal) (scale : Nat) : Int :=
  d.coefficient * tenPow (scale - d.scale)

/-- The scale at which two decimals are compared and added. -/
def commonScale (a b : Decimal) : Nat := max a.scale b.scale

protected def compare (a b : Decimal) : Ordering :=
  compare (a.coefficientAt (a.commonScale b)) (b.coefficientAt (a.commonScale b))

instance : LT Decimal := ⟨fun a b =>
  a.coefficientAt (a.commonScale b) < b.coefficientAt (a.commonScale b)⟩
instance : LE Decimal := ⟨fun a b =>
  a.coefficientAt (a.commonScale b) ≤ b.coefficientAt (a.commonScale b)⟩
instance (a b : Decimal) : Decidable (a < b) := inferInstanceAs (Decidable (_ < (_ : Int)))
instance (a b : Decimal) : Decidable (a ≤ b) := inferInstanceAs (Decidable (_ ≤ (_ : Int)))

/-- `==` holds of one value at two scales. -/
instance : BEq Decimal := ⟨fun a b =>
  a.coefficientAt (a.commonScale b) == b.coefficientAt (a.commonScale b)⟩

/-- Zero has a form at every scale. -/
def isZero (d : Decimal) : Bool := d.coefficient == 0

/-- The smaller value, and the left operand when both are equal. -/
protected def min (a b : Decimal) : Decimal := if a ≤ b then a else b

/-- Negation keeps the scale. -/
protected def neg (d : Decimal) : Decimal :=
  ⟨-d.coefficient, d.scale, by simpa using d.coefficient_lt, d.scale_le⟩

instance : Neg Decimal := ⟨Decimal.neg⟩

theorem ofParts?_eq_some {coefficient : Int} {scale : Nat} {d : Decimal} :
    ofParts? coefficient scale = some d ↔ d.coefficient = coefficient ∧ d.scale = scale := by
  unfold ofParts?
  constructor
  · intro returned
    split at returned
    · cases returned; exact ⟨rfl, rfl⟩
    · cases returned
  · rintro ⟨rfl, rfl⟩
    exact dif_pos ⟨d.coefficient_lt, d.scale_le⟩

theorem ofParts?_eq_none {coefficient : Int} {scale : Nat} :
    ofParts? coefficient scale = none ↔
      coefficientBound ≤ coefficient.natAbs ∨ maxScale < scale := by
  unfold ofParts?
  split
  next inRange => simp only [reduceCtorEq, false_iff]; omega
  next outOfRange => simp only [true_iff]; omega

@[simp] theorem neg_coefficient (d : Decimal) : (-d).coefficient = -d.coefficient := rfl

@[simp] theorem neg_scale (d : Decimal) : (-d).scale = d.scale := rfl

end Decimal

end Stablecoin
