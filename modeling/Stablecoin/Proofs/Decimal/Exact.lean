import Stablecoin.Proofs.Decimal.Share

/-!
# Exact products and sums

A product or a sum that some coefficient in range can express, at whatever scale, is returned
exactly: fitting drops digits, but only zeros. In particular nothing is lost among whole millionths
as long as they are few enough.
-/
namespace Stablecoin

theorem nearestEven_mul (n : Nat) {unit : Nat} (positive : 0 < unit) :
    nearestEven (n * unit) unit = n := by
  unfold nearestEven
  dsimp only
  rw [Nat.mul_mod_left, Nat.mul_div_cancel _ positive, if_neg]
  omega

/-- Equal fractions have the same floor. -/
theorem ediv_eq_of_cross {c n : Int} {t u : Nat} (left : 0 < t) (right : 0 < u)
    (cross : c * u = n * t) : c / t = n / u := by
  have unit : (0 : Int) < u := by exact_mod_cast right
  have unit' : (0 : Int) < t := by exact_mod_cast left
  calc c / t = c * u / (t * u) := (Int.mul_ediv_mul_of_pos_left c t unit).symm
    _ = n * t / (u * t) := by rw [cross, mul_comm (t : Int)]
    _ = n / u := Int.mul_ediv_mul_of_pos_left n u unit'

namespace Decimal

/-- What some coefficient in range expresses is fitted without loss. -/
theorem fit?_exact {n : Int} {scale : Nat} {exact : Decimal}
    (same : (n : ℚ) / 10 ^ scale = exact.toRat) :
    ∃ d, fit? n scale = some d ∧ d.toRat = exact.toRat := by
  rw [toRat_eq, div_eq_div_iff (by positivity) (by positivity)] at same
  have inRange := exact.coefficient_lt
  have short := exact.scale_le
  rcases Nat.le_total scale exact.scale with fewer | more
  · -- The number itself is no larger than the coefficient that expresses it.
    obtain ⟨zeros, padded⟩ := Nat.exists_eq_add_of_le fewer
    rw [padded, pow_add, ← mul_assoc, mul_right_comm, mul_left_inj' (by positivity),
      ← cast_tenPow] at same
    have scaled : n * tenPow zeros = exact.coefficient := by exact_mod_cast same
    have small : n.natAbs < coefficientBound := by
      refine Nat.lt_of_le_of_lt ?_ inRange
      rw [← scaled, Int.natAbs_mul, Int.natAbs_natCast]
      exact Nat.le_mul_of_pos_right _ (tenPow_pos zeros)
    have value : (n : ℚ) / 10 ^ scale = exact.toRat := by
      rw [toRat_eq, ← scaled, padded, pow_add, Int.cast_mul, Int.cast_natCast, cast_tenPow,
        mul_div_mul_right _ _ (by positivity)]
    exact ⟨_, fit?_of_inRange small (fewer.trans short), (toRat_eq _).trans value⟩
  · -- The number is that coefficient with zeros appended, which can all be dropped.
    obtain ⟨zeros, rfl⟩ := Nat.exists_eq_add_of_le more
    rw [pow_add, ← mul_assoc, mul_right_comm, mul_left_inj' (by positivity),
      ← cast_tenPow] at same
    have scaled : n = exact.coefficient * tenPow zeros := by exact_mod_cast same
    have size : n.natAbs ≤ exact.coefficient.natAbs * tenPow zeros := by
      rw [scaled, Int.natAbs_mul, Int.natAbs_natCast]
    have fits : (fit? n (exact.scale + zeros)).isSome := by
      refine List.findSome?_isSome_iff.mpr ⟨zeros, List.mem_range'_1.mpr (by omega), ?_⟩
      exact Option.isSome_iff_ne_none.mpr (dropDigits?_ne_none size le_rfl)
    obtain ⟨d, fitted⟩ := Option.isSome_iff_exists.mp fits
    refine ⟨d, fitted, ?_⟩
    obtain ⟨dropped, -, -, rounded, least⟩ := fit?_eq_some fitted
    have few : dropped ≤ zeros := by
      by_contra beyond
      rcases least with first | ⟨-, refused⟩
      · omega
      · exact dropDigits?_ne_none size (by omega) refused
    obtain ⟨kept, rfl⟩ := Nat.exists_eq_add_of_le few
    obtain ⟨coefficient, scale⟩ := dropDigits?_eq_some.mp rounded
    have whole : d.coefficient = exact.coefficient * tenPow kept := by
      have digits : n.natAbs = exact.coefficient.natAbs * tenPow kept * tenPow dropped := by
        rw [scaled, Int.natAbs_mul, Int.natAbs_natCast, Nat.add_comm dropped, tenPow_add,
          Nat.mul_assoc]
      rw [coefficient, halfEven, digits, nearestEven_mul _ (tenPow_pos dropped), scaled,
        Int.sign_mul, Int.sign_natCast_of_ne_zero (tenPow_pos _).ne', mul_one, Nat.cast_mul,
        ← mul_assoc, Int.sign_mul_natAbs]
    have place : d.scale = exact.scale + kept := by omega
    rw [toRat_eq, toRat_eq, whole, place, pow_add, Int.cast_mul, Int.cast_natCast, cast_tenPow,
      mul_div_mul_right _ _ (by positivity)]

/-- A value of few enough digits is not changed by rounding. -/
theorem Faithful.eq_of_digits {rounded x : ℚ} {n scale : Nat}
    (faithful : Faithful rounded x) (small : n < coefficientBound) (short : scale ≤ maxScale)
    (same : x = n / 10 ^ scale) : rounded = n / 10 ^ scale := by
  have value : x = (⟨n, scale, small, short⟩ : Decimal).toRat := by
    rw [same, toRat_eq, Int.cast_natCast]
  rw [value] at faithful
  rw [faithful.eq_toRat, toRat_eq, Int.cast_natCast]

/-! ### Products and sums -/

/-- No decimal but zero is closer to zero than the last digit of the largest scale. -/
theorem le_abs_of_nonzero {d : Decimal} (nonzero : d.toRat ≠ 0) : 1 / 10 ^ 28 ≤ |d.toRat| := by
  rcases lt_or_gt_of_ne nonzero with negative | positive
  · rw [abs_of_neg negative, ← toRat_neg]
    exact le_of_pos (by rw [toRat_neg]; linarith)
  · rw [abs_of_pos positive]
    exact le_of_pos positive

/-- A product that a decimal can express is returned exactly. -/
theorem mul?_exact {a b exact : Decimal} (same : a.toRat * b.toRat = exact.toRat) :
    ∃ product, a.mul? b = some product ∧ product.toRat = exact.toRat := by
  unfold mul?
  split
  next zero =>
    refine ⟨0, rfl, ?_⟩
    rw [toRat_zero, ← same]
    rcases zero with zero | zero <;> simp [isZero_iff.mp zero]
  next nonzero =>
    split
    next tiny =>
      -- So small a product is closer to zero than any decimal that is not zero.
      exfalso
      have rounded : (0 : Decimal).Rounded (a.toRat * b.toRat) :=
        mul?_rounded (by rw [mul?, if_neg nonzero, if_pos tiny])
      have apart : exact.toRat ≠ 0 := by
        rw [← same]
        simp only [isZero_iff, not_or] at nonzero
        exact mul_ne_zero nonzero.1 nonzero.2
      have least := le_abs_of_nonzero apart
      unfold Rounded at rounded
      rw [same, toRat_zero, zero_sub, abs_neg] at rounded
      rcases max_cases (1 / 2) |exact.toRat| with ⟨larger, -⟩ | ⟨larger, -⟩
      all_goals
        rw [larger] at rounded
        linarith
    next =>
      refine fit?_exact ?_
      rw [← same, toRat_eq, toRat_eq, div_mul_div_comm, pow_add, Int.cast_mul]

/-- A sum that a decimal can express is returned exactly. -/
theorem add?_exact {a b exact : Decimal} (same : a.toRat + b.toRat = exact.toRat) :
    ∃ sum, a.add? b = some sum ∧ sum.toRat = exact.toRat := by
  unfold add?
  split
  next zero =>
    exact ⟨b, rfl, by rw [← same, isZero_iff.mp zero, zero_add]⟩
  next =>
    split
    next zero =>
      exact ⟨a, rfl, by rw [← same, isZero_iff.mp zero, add_zero]⟩
    next =>
      exact fit?_exact ((toRat_add a b).symm.trans same)

/-! ### Few digits -/

/-- No more than so many digits behind the point, apart from zeros. -/
def DigitsWithin (d : Decimal) (digits : Nat) : Prop := ∃ n : Int, d.toRat = n / 10 ^ digits

theorem digitsWithin_iff {d : Decimal} {digits : Nat} :
    d.DigitsWithin digits ↔ (tenPow d.scale : Int) ∣ d.coefficient * tenPow digits := by
  refine exists_congr fun n => ?_
  rw [toRat_eq, div_eq_div_iff (by positivity) (by positivity), ← cast_tenPow, ← cast_tenPow,
    mul_comm (n : ℚ)]
  exact_mod_cast Iff.rfl

instance (d : Decimal) (digits : Nat) : Decidable (d.DigitsWithin digits) :=
  decidable_of_iff _ digitsWithin_iff.symm

theorem DigitsWithin.natCast {d : Decimal} {digits : Nat} (few : d.DigitsWithin digits)
    (nonneg : 0 ≤ d.toRat) : ∃ n : Nat, d.toRat = n / 10 ^ digits := by
  obtain ⟨n, same⟩ := few
  rw [same, le_div_iff₀ (by positivity), zero_mul] at nonneg
  obtain ⟨n, rfl⟩ := Int.eq_ofNat_of_zero_le (by exact_mod_cast nonneg)
  exact ⟨n, by rw [same, Int.cast_natCast]⟩

/-! ### Millionths -/

/-- A whole number of millionths. -/
def IsMillionths (d : Decimal) (n : Int) : Prop := d.toRat = n / 10 ^ 6

/-- The value in millionths, rounded down. -/
def millionths (d : Decimal) : Int := d.coefficient * tenPow 6 / tenPow d.scale

/-- No digits behind the sixth, apart from zeros. -/
def SixDigits (d : Decimal) : Prop := d.IsMillionths d.millionths

/-- Coefficient and millionths are the same fraction. -/
theorem isMillionths_iff {d : Decimal} {n : Int} :
    d.IsMillionths n ↔ d.coefficient * tenPow 6 = n * tenPow d.scale := by
  unfold IsMillionths
  rw [toRat_eq, div_eq_div_iff (by positivity) (by positivity), ← cast_tenPow, ← cast_tenPow]
  exact_mod_cast Iff.rfl

instance (d : Decimal) (n : Int) : Decidable (d.IsMillionths n) :=
  decidable_of_iff _ isMillionths_iff.symm

instance (d : Decimal) : Decidable d.SixDigits := inferInstanceAs (Decidable (IsMillionths _ _))

/-- Digits of a rate that is not negative, as a natural number. -/
theorem SixDigits.isMillionths {rate : Decimal} (digits : rate.SixDigits)
    (nonneg : 0 ≤ rate.toRat) : rate.IsMillionths rate.millionths.toNat := by
  unfold SixDigits IsMillionths at digits
  have low : 0 ≤ rate.millionths := by
    rw [digits, le_div_iff₀ (by positivity), zero_mul] at nonneg
    exact_mod_cast nonneg
  rw [IsMillionths, Int.toNat_of_nonneg low]
  exact digits

theorem SixDigits.natCast {rate : Decimal} (digits : rate.SixDigits) {bound : Nat}
    (nonneg : 0 ≤ rate.toRat) (below : rate.toRat < bound) :
    rate.IsMillionths rate.millionths.toNat ∧ rate.millionths.toNat < bound * 1000000 := by
  have whole := digits.isMillionths nonneg
  refine ⟨whole, ?_⟩
  rw [whole, Int.cast_natCast, div_lt_iff₀ (by positivity)] at below
  norm_num at below
  exact_mod_cast below

/-- So many millionths as a decimal. -/
def ofMillionths (n : Int) (small : n.natAbs < coefficientBound) : Decimal where
  coefficient := n
  scale := 6
  coefficient_lt := small

section Millionths

variable {a b d : Decimal} {m n : Int}

theorem ofMillionths_toRat (small : n.natAbs < coefficientBound) :
    (ofMillionths n small).toRat = n / 10 ^ 6 := toRat_eq _

theorem isMillionths_zero : (0 : Decimal).IsMillionths 0 := by decide

/-- Products of millionths are exact if the product is in millionths too. -/
theorem mul_millionths (value : a.toRat * b.toRat = n / 10 ^ 6)
    (small : n.natAbs < coefficientBound) :
    ∃ product, a.mul b = .ok product ∧ product.IsMillionths n := by
  have same := value.trans (ofMillionths_toRat small).symm
  obtain ⟨product, multiplied, exact'⟩ := mul?_exact same
  exact ⟨product, orOverflow_ok.mpr multiplied, exact'.trans (ofMillionths_toRat small)⟩

/-- Products of two numbers of millionths have twice the digits and are exact too. -/
theorem IsMillionths.mul {m n : Nat} (left : a.IsMillionths m) (right : b.IsMillionths n)
    (small : m * n < coefficientBound) :
    ∃ product, a.mul b = .ok product ∧ product.toRat = (m * n : Nat) / 10 ^ 12 := by
  have value :
      (⟨(m * n : Nat), 12, small, by decide⟩ : Decimal).toRat = (m * n : Nat) / 10 ^ 12 := by
    rw [toRat_eq, Int.cast_natCast]
  have same : a.toRat * b.toRat = (m * n : Nat) / 10 ^ 12 := by
    rw [left, right]
    push_cast
    ring
  obtain ⟨product, multiplied, exact'⟩ := mul?_exact (same.trans value.symm)
  exact ⟨product, orOverflow_ok.mpr multiplied, exact'.trans value⟩

/-- Sums of millionths are exact. -/
theorem IsMillionths.add (left : a.IsMillionths m) (right : b.IsMillionths n)
    (small : (m + n).natAbs < coefficientBound) :
    ∃ sum, a.add b = .ok sum ∧ sum.IsMillionths (m + n) := by
  have same : a.toRat + b.toRat = (ofMillionths (m + n) small).toRat := by
    rw [left, right, ofMillionths_toRat, Int.cast_add, add_div]
  obtain ⟨sum, added, exact'⟩ := add?_exact same
  exact ⟨sum, orOverflow_ok.mpr added, exact'.trans (ofMillionths_toRat small)⟩

theorem IsMillionths.payOut (whole : d.IsMillionths n) (nonneg : 0 ≤ n) :
    d.payOut = .ok (n / 1000000).toNat := by
  have positive : 0 ≤ d.coefficient := coefficient_nonneg <| by
    have cast : (0 : ℚ) ≤ n := by exact_mod_cast nonneg
    rw [whole]
    positivity
  have truncated : d.truncate = n / 1000000 := by
    rw [truncate, Int.tdiv_eq_ediv_of_nonneg positive]
    exact ediv_eq_of_cross (tenPow_pos _) (tenPow_pos 6) (isMillionths_iff.mp whole)
  rw [Decimal.payOut, amountOf_ok, truncated]
  omega

theorem IsMillionths.ceil (whole : d.IsMillionths n) : d.ceil = -(-n / 1000000) := by
  have cross : -d.coefficient * tenPow 6 = -n * tenPow d.scale := by
    rw [neg_mul, neg_mul, isMillionths_iff.mp whole]
  rw [Decimal.ceil, Int.fdiv_eq_ediv_of_nonneg _ (Int.natCast_nonneg _)]
  exact congrArg Neg.neg (ediv_eq_of_cross (tenPow_pos _) (tenPow_pos 6) cross)

end Millionths

end Decimal

end Stablecoin
