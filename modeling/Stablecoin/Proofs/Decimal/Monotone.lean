import Stablecoin.Proofs.Decimal.Share

/-!
# Rounding keeps the order

Of two values the larger one is never rounded to less, ties and different numbers of digits
included. Half a unit of error on either side leaves room for the opposite only where both values
are the same, and the same value is rounded the same way in whatever units it is given.
-/
namespace Stablecoin

/-- A number and a unit that grow alike are rounded alike. -/
theorem nearestEven_scale (n unit : Nat) {factor : Nat} (positive : 0 < factor) :
    nearestEven (n * factor) (unit * factor) = nearestEven n unit := by
  unfold nearestEven
  dsimp only
  have more : unit * factor < 2 * (n % unit * factor) ↔ unit < 2 * (n % unit) := by
    rw [← Nat.mul_assoc, Nat.mul_lt_mul_right positive]
  have half : 2 * (n % unit * factor) = unit * factor ↔ 2 * (n % unit) = unit := by
    rw [← Nat.mul_assoc, Nat.mul_right_cancel_iff positive]
  rw [Nat.mul_div_mul_right _ _ positive, Nat.mul_mod_mul_right]
  simp only [more, half]

theorem nearestEven_mono {n m unit unit' : Nat} (positive : 0 < unit) (positive' : 0 < unit')
    (below : n * unit' ≤ m * unit) : nearestEven n unit ≤ nearestEven m unit' := by
  by_contra beyond
  have step := Nat.mul_le_mul_right (unit * unit') (Nat.succ_le_of_lt (Nat.lt_of_not_le beyond))
  have least := Nat.mul_le_mul_right unit' (nearestEven_bounds n positive).2
  have most := Nat.mul_le_mul_right unit (nearestEven_bounds m positive').1
  -- The errors add up to a whole unit only if both fractions are the same.
  have same : n * unit' = m * unit := by
    have left : 2 * (nearestEven n unit * unit) * unit'
        = 2 * (nearestEven n unit * (unit * unit')) := by ring
    have right : (2 * (nearestEven m unit' * unit') + unit') * unit
        = 2 * (nearestEven m unit' * (unit * unit')) + unit * unit' := by ring
    rw [Nat.succ_mul] at step
    rw [left, Nat.add_mul, Nat.mul_assoc 2 n] at least
    rw [right, Nat.mul_assoc 2 m] at most
    omega
  refine beyond (le_of_eq ?_)
  calc nearestEven n unit = nearestEven (n * unit') (unit * unit') :=
        (nearestEven_scale n unit positive').symm
    _ = nearestEven (m * unit) (unit' * unit) := by rw [same, Nat.mul_comm unit]
    _ = nearestEven m unit' := nearestEven_scale m unit' positive

namespace Decimal

/-- Without a sign the coefficient is the rounded number. -/
theorem dropDigits?_natCast {n scale dropped : Nat} :
    dropDigits? n scale dropped = ofParts? (halfEven n dropped) (scale - dropped) := by
  unfold dropDigits?
  rcases Nat.eq_zero_or_pos n with rfl | positive
  · have none : halfEven 0 dropped = 0 := by
      have bounds := (halfEven_bounds 0 dropped).2
      have unit := tenPow_pos dropped
      by_contra other
      have least := Nat.le_mul_of_pos_left (tenPow dropped) (Nat.pos_of_ne_zero other)
      omega
    simp [none]
  · rw [Int.sign_natCast_of_ne_zero positive.ne', one_mul, Int.natAbs_natCast]

/-- Digits can be dropped if the rounded number is in range, and cannot be if it is not. -/
theorem halfEven_lt {n scale dropped : Nat} {d : Decimal}
    (rounded : dropDigits? n scale dropped = some d) : halfEven n dropped < coefficientBound := by
  have inRange := d.coefficient_lt
  rw [dropDigits?_natCast, ofParts?_eq_some] at rounded
  rwa [rounded.1, Int.natAbs_natCast] at inRange

theorem le_halfEven {n scale dropped : Nat} (within : scale - maxScale ≤ dropped)
    (refused : dropDigits? n scale dropped = none) : coefficientBound ≤ halfEven n dropped := by
  rw [dropDigits?_natCast, ofParts?_eq_none, Int.natAbs_natCast] at refused
  exact refused.resolve_right (by omega)

section Fit

variable {n m scale scale' : Nat} {a b : Decimal} (fitted : fit? n scale = some a)
  (fitted' : fit? m scale' = some b) (below : n * tenPow scale' ≤ m * tenPow scale)
include fitted fitted' below

/-- A larger value keeps no more digits, unless the smaller one is kept as it is. -/
private theorem scale_le_or_exact : b.scale ≤ a.scale ∨ a.toRat = n / 10 ^ scale := by
  by_contra! deeper
  obtain ⟨more, inexact⟩ := deeper
  obtain ⟨dropped, -, within, rounded, least⟩ := fit?_eq_some fitted
  obtain ⟨dropped', -, within', rounded', -⟩ := fit?_eq_some fitted'
  have fits := halfEven_lt rounded'
  rw [dropDigits?_natCast, ofParts?_eq_some] at rounded rounded'
  obtain ⟨coefficient, place⟩ := rounded
  obtain ⟨-, place'⟩ := rounded'
  have short := b.scale_le
  rcases least with first | ⟨-, refused⟩
  · -- Nothing had to be dropped, so nothing was lost.
    have none : dropped = 0 := by simp only [maxScale] at first short; omega
    subst none
    refine inexact ?_
    rw [toRat_eq, coefficient, place, halfEven, tenPow_zero, nearestEven_one]
    rfl
  · -- The digit that was refused here is one of those kept there.
    have full := le_halfEven (by omega) refused
    refine absurd (full.trans (nearestEven_mono (tenPow_pos _) (tenPow_pos _) ?_))
      (Nat.not_le.mpr fits)
    obtain ⟨kept, rfl⟩ : ∃ kept, scale = dropped - 1 + kept := ⟨scale - (dropped - 1), by omega⟩
    obtain ⟨kept', rfl⟩ : ∃ kept', scale' = dropped' + (kept + kept') :=
      ⟨scale' - dropped' - kept, by omega⟩
    refine Nat.le_of_mul_le_mul_right ?_ (tenPow_pos kept)
    calc n * tenPow dropped' * tenPow kept
        ≤ n * tenPow dropped' * tenPow kept * tenPow kept' :=
          Nat.le_mul_of_pos_right _ (tenPow_pos kept')
      _ = n * tenPow (dropped' + (kept + kept')) := by rw [tenPow_add, tenPow_add]; ring
      _ ≤ m * tenPow (dropped - 1 + kept) := below
      _ = m * tenPow (dropped - 1) * tenPow kept := by rw [tenPow_add, Nat.mul_assoc]

/-- Digits that both keep are those of one rounding. -/
private theorem toRat_le_of_scale_eq (same : a.scale = b.scale) : a.toRat ≤ b.toRat := by
  obtain ⟨dropped, -, within, rounded, -⟩ := fit?_eq_some fitted
  obtain ⟨dropped', -, within', rounded', -⟩ := fit?_eq_some fitted'
  rw [dropDigits?_natCast, ofParts?_eq_some] at rounded rounded'
  obtain ⟨coefficient, place⟩ := rounded
  obtain ⟨coefficient', place'⟩ := rounded'
  obtain ⟨kept, rfl⟩ := Nat.exists_eq_add_of_le' within
  obtain ⟨kept', rfl⟩ := Nat.exists_eq_add_of_le' within'
  obtain rfl : kept = kept' := by omega
  have ordered : halfEven n dropped ≤ halfEven m dropped' := by
    refine nearestEven_mono (tenPow_pos _) (tenPow_pos _) ?_
    rw [tenPow_add, tenPow_add, Nat.mul_left_comm, Nat.mul_left_comm m] at below
    exact Nat.le_of_mul_le_mul_left below (tenPow_pos kept)
  rw [toRat_eq, toRat_eq, coefficient, coefficient', same]
  gcongr

/-- Of two values that are not negative the larger one is not fitted to less. -/
theorem fit?_mono : a.toRat ≤ b.toRat := by
  have ordered : (n : ℚ) / 10 ^ scale ≤ m / 10 ^ scale' := by
    rw [div_le_div_iff₀ (by positivity) (by positivity), ← cast_tenPow, ← cast_tenPow]
    exact_mod_cast below
  have faithful := fit?_faithful fitted
  have faithful' := fit?_faithful fitted'
  rw [Int.cast_natCast] at faithful faithful'
  rcases scale_le_or_exact fitted fitted' below with fewer | exact
  · rcases fewer.eq_or_lt with same | fewer
    · exact toRat_le_of_scale_eq fitted fitted' below same.symm
    · -- A value that keeps fewer digits is exact, or larger than all decimals with more of them.
      have nearest := fit?_nearest fitted'
      rw [Int.cast_natCast] at nearest
      rcases nearest.deepest with exact' | deep | full
      · have kept : b.toRat = m / 10 ^ scale' := by
          rw [toRat_eq, exact', zpow_natCast, mul_div_assoc, div_self (by positivity), mul_one]
        exact faithful.le b (ordered.trans kept.ge)
      · have short := a.scale_le
        omega
      · rw [abs_of_nonneg (by positivity)] at full
        exact faithful'.ge a (toRat_le_of_full (by positivity) full (by exact_mod_cast fewer))
  · exact faithful'.ge a (exact.le.trans ordered)

end Fit

/-! ### Products -/

/-- Nothing is left of a product below half of the last digit of the largest scale. -/
theorem mul?_of_tiny {a b product : Decimal} (nonneg : 0 ≤ a.toRat * b.toRat)
    (tiny : a.toRat * b.toRat < 1 / 2 / 10 ^ 28) (multiplied : a.mul? b = some product) :
    product.toRat ≤ 0 := by
  by_contra positive
  have least := le_of_pos (not_le.mp positive)
  have most := (mul?_rounded multiplied).le nonneg
  rw [max_eq_left (by linarith)] at most
  linarith

/-- Of two products of decimals that are not negative the larger one is not rounded to less. -/
theorem mul?_le {a b c d product product' : Decimal} (left : 0 ≤ a.toRat) (right : 0 ≤ c.toRat)
    (left' : 0 ≤ b.toRat) (right' : 0 ≤ d.toRat)
    (ordered : a.toRat * c.toRat ≤ b.toRat * d.toRat) (multiplied : a.mul? c = some product)
    (multiplied' : b.mul? d = some product') : product.toRat ≤ product'.toRat := by
  have exact_nonneg : 0 ≤ a.toRat * c.toRat := Rat.mul_nonneg left right
  have rounded_nonneg := mul?_nonneg multiplied' left' right'
  have faithful := mul?_faithful multiplied
  unfold mul? at multiplied'
  split at multiplied'
  next zero =>
    cases multiplied'
    have none : b.toRat * d.toRat = 0 := by
      rcases zero with zero | zero <;> simp [isZero_iff.mp zero]
    exact faithful.le 0 (ordered.trans (none.trans toRat_zero.symm).le)
  next =>
    split at multiplied'
    next tiny =>
      cases multiplied'
      obtain ⟨few, few', deep⟩ := tiny
      have small := (le_abs_self _).trans_lt (toRat_mul_tiny few few' deep)
      exact (mul?_of_tiny exact_nonneg (ordered.trans_lt small) multiplied).trans toRat_zero.ge
    next =>
      unfold mul? at multiplied
      split at multiplied
      next =>
        cases multiplied
        exact toRat_zero.trans_le rounded_nonneg
      next =>
        split at multiplied
        next =>
          cases multiplied
          exact toRat_zero.trans_le rounded_nonneg
        next =>
          -- Both products are fitted.
          obtain ⟨n, small⟩ := Int.eq_ofNat_of_zero_le
            (Int.mul_nonneg (coefficient_nonneg left) (coefficient_nonneg right))
          obtain ⟨m, large⟩ := Int.eq_ofNat_of_zero_le
            (Int.mul_nonneg (coefficient_nonneg left') (coefficient_nonneg right'))
          rw [toRat_mul, toRat_mul, small, large, div_le_div_iff₀ (by positivity) (by positivity),
            ← cast_tenPow, ← cast_tenPow] at ordered
          rw [small] at multiplied
          rw [large] at multiplied'
          exact fit?_mono multiplied multiplied' (by exact_mod_cast ordered)

/-- A larger factor does not make a product of decimals that are not negative smaller. -/
theorem mul?_mono {a b c product product' : Decimal} (nonneg : 0 ≤ a.toRat)
    (below : a.toRat ≤ b.toRat) (factor : 0 ≤ c.toRat) (multiplied : a.mul? c = some product)
    (multiplied' : b.mul? c = some product') : product.toRat ≤ product'.toRat :=
  mul?_le nonneg factor (nonneg.trans below) factor (mul_le_mul_of_nonneg_right below factor)
    multiplied multiplied'

end Decimal

end Stablecoin
