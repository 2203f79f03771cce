import Stablecoin.Proofs.Decimal.Exact
import Stablecoin.Proofs.Validated

/-!
# Conversions that round once

Amounts paid in are the least that cover a value, and amounts paid out the most that a value covers.
Between millionths the quotient in between makes no difference: no decimal lies between it and the
exact one, and it is too close to the exact one to pass a whole number on its own. So converting at
a price rounds as exact arithmetic would, in the direction of the amount alone.
-/
namespace Stablecoin.Decimal

/-! ### Whole amounts -/

section Whole

variable {d : Decimal} {n : Nat} (m : Nat)

/-- An amount covers what is paid in for a value if it covers the value. -/
theorem payIn_le_iff (paid : d.payIn = .ok n) : n ≤ m ↔ d.toRat ≤ m := by
  constructor
  · intro within
    have cast : (n : ℚ) ≤ m := by exact_mod_cast within
    exact (le_payIn paid).trans cast
  · intro covered
    have cast : (n : ℚ) < m + 1 := by linarith [payIn_lt paid]
    exact Nat.lt_succ_iff.mp (by exact_mod_cast cast)

/-- An amount is covered by what is paid out for a value if it is covered by the value. -/
theorem le_payOut_iff (paid : d.payOut = .ok n) (nonneg : 0 ≤ d.toRat) :
    m ≤ n ↔ (m : ℚ) ≤ d.toRat := by
  constructor
  · intro within
    have cast : (m : ℚ) ≤ n := by exact_mod_cast within
    exact cast.trans (payOut_le paid nonneg)
  · intro covered
    have cast : (m : ℚ) < n + 1 := by linarith [lt_payOut paid nonneg]
    exact Nat.lt_succ_iff.mp (by exact_mod_cast cast)

theorem payIn_of_nonneg (nonneg : 0 ≤ d.toRat) : ∃ n, d.payIn = .ok n :=
  ⟨_, amountOf_ok.mpr (Int.toNat_of_nonneg (ceil_nonneg nonneg)).symm⟩

theorem payOut_of_nonneg (nonneg : 0 ≤ d.toRat) : ∃ n, d.payOut = .ok n :=
  ⟨_, amountOf_ok.mpr (Int.toNat_of_nonneg (truncate_nonneg nonneg)).symm⟩

end Whole

/-! ### Quotients of millionths -/

theorem IsMillionths.pos {d : Decimal} {n : Nat} (whole : d.IsMillionths n) (positive : 0 < n) :
    0 < d.toRat := by
  have cast : (0 : ℚ) < n := by exact_mod_cast positive
  rw [whole, Int.cast_natCast]
  positivity

theorem IsMillionths.nonneg {d : Decimal} {n : Nat} (whole : d.IsMillionths n) : 0 ≤ d.toRat := by
  rw [whole, Int.cast_natCast]
  positivity

section Quotient

variable {value price quotient : Decimal} {n unit m : Nat} (whole : price.IsMillionths unit)
  (positive : 0 < unit) (divided : value.div price = .ok quotient)
include whole positive divided

/-- A whole number that a value covers at a price is covered by the quotient. -/
theorem natCast_le_quotient (least : (n : ℚ) / 10 ^ 6 ≤ value.toRat) (within : m * unit ≤ n)
    (small : m < coefficientBound) : (m : ℚ) ≤ quotient.toRat := by
  refine (div?_faithful (orOverflow_ok.mp divided)).natCast_le small ?_
  have cast : (m : ℚ) * unit ≤ n := by exact_mod_cast within
  have unit_pos : (0 : ℚ) < unit := by exact_mod_cast positive
  rw [whole, Int.cast_natCast, le_div_iff₀ (by positivity)]
  linarith

/-- A whole number that covers a value at a price covers the quotient. -/
theorem quotient_le_natCast (most : value.toRat ≤ n / 10 ^ 6) (within : n ≤ m * unit) :
    quotient.toRat ≤ m := by
  refine (div?_faithful (orOverflow_ok.mp divided)).le_natCast ?_
  have cast : (n : ℚ) ≤ m * unit := by exact_mod_cast within
  have unit_pos : (0 : ℚ) < unit := by exact_mod_cast positive
  rw [whole, Int.cast_natCast, div_le_iff₀ (by positivity)]
  linarith

variable (inRange : n + unit < 10 ^ 28)
include inRange

/-- The quotient is too close to the exact one to cover a whole number that the value does not. -/
theorem mul_le_of_le_quotient (nonneg : 0 ≤ value.toRat) (most : value.toRat ≤ n / 10 ^ 6)
    (covered : (m : ℚ) ≤ quotient.toRat) : m * unit ≤ n := by
  by_contra beyond
  have more : (n : ℚ) + 1 ≤ m * unit := by exact_mod_cast Nat.lt_of_not_le beyond
  have room : (n : ℚ) + unit < 10 ^ 28 := by exact_mod_cast inRange
  have exact' : price.toRat = unit / 10 ^ 6 := whole
  have price_pos := whole.pos positive
  have near := div_mul_le nonneg price_pos divided
  have scaled := mul_le_mul_of_nonneg_right covered price_pos.le
  rw [exact'] at near scaled
  linarith

/-- The quotient is too close to the exact one to be covered by a whole number that does not cover
the value. -/
theorem le_mul_of_quotient_le (nonneg : 0 ≤ value.toRat) (least : (n : ℚ) / 10 ^ 6 ≤ value.toRat)
    (covered : quotient.toRat ≤ m) : n ≤ m * unit := by
  by_contra beyond
  have fewer : (m * unit : ℚ) + 1 ≤ n := by exact_mod_cast Nat.lt_of_not_le beyond
  have room : (n : ℚ) + unit < 10 ^ 28 := by exact_mod_cast inRange
  have exact' : price.toRat = unit / 10 ^ 6 := whole
  have price_pos := whole.pos positive
  have near := le_div_mul nonneg price_pos divided
  have scaled := mul_le_mul_of_nonneg_right covered price_pos.le
  rw [exact'] at near scaled
  linarith

end Quotient

/-! ### Amounts at prices in millionths -/

/-- A value is divided by a price unless the quotient is out of range. -/
theorem div_of_le {value price : Decimal} (nonneg : 0 ≤ value.toRat) (positive : 0 < price.toRat)
    (within : value.toRat ≤ largest.toRat * price.toRat) :
    ∃ quotient, value.div price = .ok quotient := by
  obtain ⟨quotient, divided⟩ := div?_of_le nonneg positive (div_le_of_le_mul₀ positive.le
    (largest_toRat ▸ by norm_num) within)
  exact ⟨quotient, orOverflow_ok.mpr divided⟩

/-- A payout fails only if the quotient is out of range. -/
theorem payOutAt_error {value price : Decimal} {failure : Failure} (nonneg : 0 ≤ value.toRat)
    (positive : 0 < price.toRat) (failed : value.payOutAt price = .error failure) :
    failure = .rejected .overflow ∧ largest.toRat * price.toRat < value.toRat := by
  have beyond : largest.toRat * price.toRat < value.toRat := by
    by_contra within
    obtain ⟨quotient, divided⟩ := div_of_le nonneg positive (not_lt.mp within)
    obtain ⟨paid, truncated⟩ := payOut_of_nonneg (div_nonneg divided nonneg positive.le)
    cases failed.symm.trans (bind_ok.mpr ⟨quotient, divided, truncated⟩)
  refine ⟨?_, beyond⟩
  rcases bind_error.mp failed with refused | ⟨quotient, divided, truncated⟩
  · rw [div] at refused
    cases found : value.div? price with
    | none =>
      rw [found] at refused
      cases refused
      rfl
    | some quotient =>
      rw [found] at refused
      cases refused
  · obtain ⟨paid, same⟩ := payOut_of_nonneg (div_nonneg divided nonneg positive.le)
    cases truncated.symm.trans same

/-- A whole number that a value covers at a price is paid out for it. -/
theorem le_payOutAt {value price : Decimal} {m n : Nat} (nonneg : 0 ≤ value.toRat)
    (positive : 0 < price.toRat) (small : m < coefficientBound)
    (covered : m * price.toRat ≤ value.toRat) (paid : value.payOutAt price = .ok n) : m ≤ n := by
  simp only [payOutAt, bind_ok] at paid
  obtain ⟨quotient, divided, truncated⟩ := paid
  rw [le_payOut_iff m truncated (div_nonneg divided nonneg positive.le)]
  exact (div?_faithful (orOverflow_ok.mp divided)).natCast_le small
    ((le_div_iff₀ positive).mpr covered)

/-- Units paid out at the peg are those that the value covers. -/
theorem le_payOutAt_pegTarget_iff {value : Decimal} {n : Nat} (nonneg : 0 ≤ value.toRat)
    (paid : value.payOutAt pegTarget = .ok n) (m : Nat) : m ≤ n ↔ (m : ℚ) ≤ value.toRat := by
  simp only [payOutAt, div, bind_ok, orOverflow_ok] at paid
  obtain ⟨quotient, divided, truncated⟩ := paid
  have same : quotient.toRat = value.toRat := div?_one_toRat divided
  rw [le_payOut_iff m truncated (same ▸ nonneg), same]

/-- A value in range is minted at the peg rounded down to whole units. -/
theorem payOutAt_pegTarget {value : Decimal} (nonneg : 0 ≤ value.toRat)
    (small : value.toRat ≤ largest.toRat) :
    ∃ total, value.payOutAt pegTarget = .ok total ∧
      ∀ n : Nat, n ≤ total ↔ (n : ℚ) ≤ value.toRat := by
  have peg : pegTarget.toRat = 1 := toRat_one
  obtain ⟨quotient, divided⟩ := div_of_le nonneg pegTarget_pos (by rwa [peg, mul_one])
  have same : quotient.toRat = value.toRat := div?_one_toRat (orOverflow_ok.mp divided)
  rw [← same] at nonneg ⊢
  obtain ⟨total, truncated⟩ := payOut_of_nonneg nonneg
  exact ⟨total, bind_ok.mpr ⟨quotient, divided, truncated⟩,
    fun n => le_payOut_iff n truncated nonneg⟩

section Amounts

variable {value price : Decimal} {n unit paid : Nat} (whole : price.IsMillionths unit)
  (positive : 0 < unit) (inRange : n + unit < 10 ^ 28)
include whole positive inRange

/-- What is paid in for a value covers as much as the value. -/
theorem le_payInAt_mul (nonneg : 0 ≤ value.toRat) (least : (n : ℚ) / 10 ^ 6 ≤ value.toRat)
    (amount : value.payInAt price = .ok paid) : n ≤ paid * unit := by
  simp only [payInAt, bind_ok] at amount
  obtain ⟨quotient, divided, rounded⟩ := amount
  exact le_mul_of_quotient_le whole positive divided inRange nonneg least (le_payIn rounded)

/-- What is paid out for a value is covered by the value. -/
theorem payOutAt_mul_le (nonneg : 0 ≤ value.toRat) (most : value.toRat ≤ n / 10 ^ 6)
    (amount : value.payOutAt price = .ok paid) : paid * unit ≤ n := by
  simp only [payOutAt, bind_ok] at amount
  obtain ⟨quotient, divided, truncated⟩ := amount
  have quotient_nonneg := div_nonneg divided nonneg (whole.pos positive).le
  exact mul_le_of_le_quotient whole positive divided inRange nonneg most
    (payOut_le truncated quotient_nonneg)

variable (counted : value.IsMillionths n)
include counted

/-- The quotient of millionths compares with whole numbers as the exact one does. -/
theorem div_millionths :
    ∃ quotient, value.div price = .ok quotient ∧ 0 ≤ quotient.toRat ∧
      (∀ m : Nat, (m : ℚ) ≤ quotient.toRat ↔ m * unit ≤ n) ∧
      ∀ m : Nat, quotient.toRat ≤ m ↔ n ≤ m * unit := by
  have price_pos := whole.pos positive
  have within : value.toRat ≤ largest.toRat * price.toRat := by
    have large : (n : ℚ) ≤ 10 ^ 28 := by
      have cast : n ≤ 10 ^ 28 := by omega
      exact_mod_cast cast
    have one : (1 : ℚ) ≤ unit := by exact_mod_cast positive
    rw [counted, whole, largest_toRat, Int.cast_natCast, Int.cast_natCast]
    linarith
  obtain ⟨quotient, divided⟩ := div_of_le counted.nonneg price_pos within
  refine ⟨quotient, divided, div_nonneg divided counted.nonneg price_pos.le, fun m => ⟨?_, ?_⟩,
    fun m => ⟨?_, ?_⟩⟩
  · exact mul_le_of_le_quotient whole positive divided inRange counted.nonneg counted.le
  · intro covered
    have small : m ≤ m * unit := Nat.le_mul_of_pos_right m positive
    exact natCast_le_quotient whole positive divided counted.ge covered
      (by simp only [coefficientBound]; omega)
  · exact le_mul_of_quotient_le whole positive divided inRange counted.nonneg counted.ge
  · exact quotient_le_natCast whole positive divided counted.le

/-- A value in millionths takes the least amount that covers it. -/
theorem payInAt_millionths :
    ∃ paid, value.payInAt price = .ok paid ∧ ∀ m, paid ≤ m ↔ n ≤ m * unit := by
  obtain ⟨quotient, divided, nonneg, -, above⟩ := div_millionths whole positive inRange counted
  obtain ⟨paid, rounded⟩ := payIn_of_nonneg nonneg
  exact ⟨paid, bind_ok.mpr ⟨quotient, divided, rounded⟩,
    fun m => (payIn_le_iff m rounded).trans (above m)⟩

/-- A value in millionths pays the largest amount that it covers. -/
theorem payOutAt_millionths :
    ∃ paid, value.payOutAt price = .ok paid ∧ ∀ m, m ≤ paid ↔ m * unit ≤ n := by
  obtain ⟨quotient, divided, nonneg, below, -⟩ := div_millionths whole positive inRange counted
  obtain ⟨paid, truncated⟩ := payOut_of_nonneg nonneg
  exact ⟨paid, bind_ok.mpr ⟨quotient, divided, truncated⟩,
    fun m => (le_payOut_iff m truncated nonneg).trans (below m)⟩

end Amounts

end Stablecoin.Decimal
