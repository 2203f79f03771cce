import Mathlib.Data.Rat.Cast.Order
import Mathlib.Tactic.FieldSimp
import Mathlib.Tactic.Linarith
import Mathlib.Tactic.Positivity
import Mathlib.Tactic.Ring
import Stablecoin.Proofs.Result

/-!
# The value of a decimal

Order, whole amounts and the two directed roundings, stated for exact rational values; and what it
means that a decimal is an exact value up to the rounding of its last digits.
-/
namespace Stablecoin

theorem cast_tenPow (n : Nat) : ((tenPow n : Nat) : ℚ) = 10 ^ n := by
  simp [tenPow]

namespace Decimal

theorem toRat_eq (d : Decimal) : d.toRat = d.coefficient / 10 ^ d.scale := by
  rw [toRat, Rat.mkRat_eq_div, cast_tenPow]

theorem toRat_eq_coefficientAt (d : Decimal) {scale : Nat} (larger : d.scale ≤ scale) :
    d.toRat = d.coefficientAt scale / 10 ^ scale := by
  -- Appended zeros multiply numerator and denominator alike.
  obtain ⟨digits, rfl⟩ := Nat.exists_eq_add_of_le larger
  rw [toRat_eq, coefficientAt, Nat.add_sub_cancel_left, Int.cast_mul, Int.cast_natCast, cast_tenPow,
    pow_add]
  field_simp

theorem le_iff_toRat {a b : Decimal} : a ≤ b ↔ a.toRat ≤ b.toRat := by
  rw [a.toRat_eq_coefficientAt (Nat.le_max_left a.scale b.scale),
    b.toRat_eq_coefficientAt (Nat.le_max_right a.scale b.scale),
    div_le_div_iff_of_pos_right (by positivity), Int.cast_le]
  rfl

theorem lt_iff_toRat {a b : Decimal} : a < b ↔ a.toRat < b.toRat := by
  rw [a.toRat_eq_coefficientAt (Nat.le_max_left a.scale b.scale),
    b.toRat_eq_coefficientAt (Nat.le_max_right a.scale b.scale),
    div_lt_div_iff_of_pos_right (by positivity), Int.cast_lt]
  rfl

@[simp] theorem toRat_zero : (0 : Decimal).toRat = 0 := by decide

@[simp] theorem toRat_one : (1 : Decimal).toRat = 1 := by decide

@[simp] theorem toRat_neg (d : Decimal) : (-d).toRat = -d.toRat := by
  simp only [toRat_eq, neg_coefficient, neg_scale, Int.cast_neg, neg_div]

theorem toRat_nonneg {d : Decimal} (nonneg : 0 ≤ d.coefficient) : 0 ≤ d.toRat := by
  have cast : (0 : ℚ) ≤ d.coefficient := by exact_mod_cast nonneg
  rw [toRat_eq]
  positivity

theorem coefficient_nonneg {d : Decimal} (nonneg : 0 ≤ d.toRat) : 0 ≤ d.coefficient := by
  by_contra negative
  have cast : (d.coefficient : ℚ) < 0 := by exact_mod_cast Int.not_le.mp negative
  rw [toRat_eq] at nonneg
  exact absurd nonneg (not_le.mpr (div_neg_of_neg_of_pos cast (by positivity)))

theorem toRat_min (a b : Decimal) : (a.min b).toRat = min a.toRat b.toRat := by
  unfold Decimal.min
  split
  next below => exact (min_eq_left (le_iff_toRat.mp below)).symm
  next above => exact (min_eq_right (not_le.mp (le_iff_toRat.not.mp above)).le).symm

/-- No positive decimal is smaller than the last digit of the largest scale. -/
theorem le_of_pos {d : Decimal} (positive : 0 < d.toRat) : 1 / 10 ^ 28 ≤ d.toRat := by
  have coefficient : (1 : ℚ) ≤ d.coefficient := by
    rw [toRat_eq, div_pos_iff_of_pos_right (by positivity)] at positive
    exact_mod_cast positive
  have scale : (10 : ℚ) ^ d.scale ≤ 10 ^ 28 := pow_le_pow_right₀ (by norm_num) d.scale_le
  rw [toRat_eq]
  gcongr

theorem ofAmount_toRat {n : Nat} {d : Decimal} (counted : ofAmount n = .ok d) : d.toRat = n := by
  obtain ⟨coefficient, scale⟩ := ofParts?_eq_some.mp (orOverflow_ok.mp counted)
  simp [toRat_eq, coefficient, scale]

theorem ofCounter_toRat {n : Int} {d : Decimal} (counted : ofCounter n = .ok d) : d.toRat = n := by
  obtain ⟨coefficient, scale⟩ := ofParts?_eq_some.mp (orOverflow_ok.mp counted)
  simp [toRat_eq, coefficient, scale]

theorem ofAmount_of_lt {n : Nat} (small : n < coefficientBound) :
    ofAmount n = .ok ⟨n, 0, small, by decide⟩ :=
  orOverflow_ok.mpr (ofParts?_eq_some.mpr ⟨rfl, rfl⟩)

/-- What is no more than a decimal is in range. -/
theorem lt_coefficientBound_of_le {n : Nat} {d : Decimal} (within : (n : ℚ) ≤ d.toRat) :
    n < coefficientBound := by
  have positive := coefficient_nonneg ((Nat.cast_nonneg n).trans within)
  have cast : (0 : ℚ) ≤ d.coefficient := by exact_mod_cast positive
  have whole : d.toRat ≤ d.coefficient := by
    rw [toRat_eq]
    exact div_le_self cast (one_le_pow₀ (by norm_num))
  have below : (n : Int) ≤ d.coefficient := by exact_mod_cast within.trans whole
  have inRange := d.coefficient_lt
  omega

/-- What is paid out is no more than the value. -/
theorem payOut_le {d : Decimal} {n : Nat} (paid : d.payOut = .ok n) (nonneg : 0 ≤ d.toRat) :
    (n : ℚ) ≤ d.toRat := by
  have whole : d.truncate = n := amountOf_ok.mp paid
  have below : (n : Int) * tenPow d.scale ≤ d.coefficient := by
    rw [← whole, truncate, Int.tdiv_eq_ediv_of_nonneg (coefficient_nonneg nonneg)]
    exact Int.ediv_mul_le _ (by exact_mod_cast (tenPow_pos d.scale).ne')
  have cast : (n : ℚ) * 10 ^ d.scale ≤ d.coefficient := by
    rw [← cast_tenPow]
    exact_mod_cast below
  rwa [toRat_eq, le_div_iff₀ (by positivity)]

/-- What is paid out falls short of the value by less than one. -/
theorem lt_payOut {d : Decimal} {n : Nat} (paid : d.payOut = .ok n) (nonneg : 0 ≤ d.toRat) :
    d.toRat < n + 1 := by
  have whole : d.truncate = n := amountOf_ok.mp paid
  have positive : (0 : Int) < tenPow d.scale := by exact_mod_cast tenPow_pos d.scale
  have above : d.coefficient < (n + 1) * tenPow d.scale := by
    rw [← whole, truncate, Int.tdiv_eq_ediv_of_nonneg (coefficient_nonneg nonneg)]
    exact Int.lt_ediv_add_one_mul_self _ positive
  have cast : (d.coefficient : ℚ) < (n + 1) * 10 ^ d.scale := by
    rw [← cast_tenPow]
    exact_mod_cast above
  rwa [toRat_eq, div_lt_iff₀ (by positivity)]

/-- What is paid in is no less than the value. -/
theorem le_payIn {d : Decimal} {n : Nat} (paid : d.payIn = .ok n) : d.toRat ≤ n := by
  have whole : d.ceil = n := amountOf_ok.mp paid
  have above : d.coefficient ≤ n * tenPow d.scale := by
    -- The ceiling is the negated floor of the negation.
    have positive : (0 : Int) < tenPow d.scale := by exact_mod_cast tenPow_pos d.scale
    have floor := Int.ediv_mul_le (-d.coefficient) positive.ne'
    rw [← Int.fdiv_eq_ediv_of_nonneg _ positive.le] at floor
    rw [← whole, ceil]
    linarith
  have cast : (d.coefficient : ℚ) ≤ n * 10 ^ d.scale := by
    rw [← cast_tenPow]
    exact_mod_cast above
  rwa [toRat_eq, div_le_iff₀ (by positivity)]

/-- What is paid in exceeds the value by less than one. -/
theorem payIn_lt {d : Decimal} {n : Nat} (paid : d.payIn = .ok n) : (n : ℚ) < d.toRat + 1 := by
  have whole : d.ceil = n := amountOf_ok.mp paid
  have positive : (0 : Int) < tenPow d.scale := by exact_mod_cast tenPow_pos d.scale
  have below : (n - 1) * tenPow d.scale < d.coefficient := by
    have floor := Int.lt_ediv_add_one_mul_self (-d.coefficient) positive
    rw [← Int.fdiv_eq_ediv_of_nonneg _ positive.le] at floor
    rw [← whole, ceil]
    linarith
  have cast : (n - 1 : ℚ) * 10 ^ d.scale < d.coefficient := by
    rw [← cast_tenPow]
    exact_mod_cast below
  rw [toRat_eq, ← sub_lt_iff_lt_add]
  exact (lt_div_iff₀ (by positivity)).mpr cast

/-- A decimal is an exact value up to the rounding of its last digits: absolutely at the largest
scale, relatively where the coefficient is full. -/
def Near (d : Decimal) (x : ℚ) : Prop := |d.toRat - x| ≤ (1 + |x|) / 10 ^ 28

theorem Near.of_eq {d : Decimal} {x : ℚ} (exact : d.toRat = x) : d.Near x := by
  unfold Near
  rw [exact, sub_self, abs_zero]
  positivity

namespace Near

variable {d : Decimal} {x : ℚ}

theorem le (near : d.Near x) (nonneg : 0 ≤ x) : d.toRat ≤ x + (1 + x) / 10 ^ 28 := by
  have bounds := abs_le.mp near
  rw [abs_of_nonneg nonneg] at bounds
  linarith [bounds.2]

theorem ge (near : d.Near x) (nonneg : 0 ≤ x) : x ≤ d.toRat + (1 + x) / 10 ^ 28 := by
  have bounds := abs_le.mp near
  rw [abs_of_nonneg nonneg] at bounds
  linarith [bounds.1]

end Near

/-- A decimal is an exact value up to half of its last digit, which is the last digit of the largest
scale or of a full coefficient. -/
def Rounded (d : Decimal) (x : ℚ) : Prop := |d.toRat - x| ≤ max (1 / 2) |x| / 10 ^ 28

namespace Rounded

variable {d : Decimal} {x : ℚ}

theorem of_eq (exact : d.toRat = x) : d.Rounded x := by
  unfold Rounded
  rw [exact, sub_self, abs_zero]
  positivity

theorem near (rounded : d.Rounded x) : d.Near x := by
  have size := abs_nonneg x
  refine rounded.trans ?_
  gcongr
  exact max_le (by linarith) (by linarith)

theorem le (rounded : d.Rounded x) (nonneg : 0 ≤ x) :
    d.toRat ≤ x + max (1 / 2) x / 10 ^ 28 := by
  have bounds := abs_le.mp rounded
  rw [abs_of_nonneg nonneg] at bounds
  linarith [bounds.2]

theorem ge (rounded : d.Rounded x) (nonneg : 0 ≤ x) :
    x ≤ d.toRat + max (1 / 2) x / 10 ^ 28 := by
  have bounds := abs_le.mp rounded
  rw [abs_of_nonneg nonneg] at bounds
  linarith [bounds.1]

end Rounded

end Decimal

end Stablecoin
