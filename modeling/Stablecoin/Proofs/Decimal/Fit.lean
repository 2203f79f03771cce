import Stablecoin.Proofs.Decimal.Nearest

/-!
# How exact sums and products are

Fitting keeps the value up to half of the last digit kept. It drops a digit beyond the largest scale
only when the coefficient would leave its range, so the coefficient that stays is nearly full and
the error small against the value.
-/
namespace Stablecoin

/-- Rounding to nearest is off by half a unit at most. -/
theorem nearestEven_bounds (n : Nat) {unit : Nat} (positive : 0 < unit) :
    2 * n ≤ 2 * (nearestEven n unit * unit) + unit ∧
      2 * (nearestEven n unit * unit) ≤ 2 * n + unit := by
  have split := Nat.div_add_mod n unit
  have below := Nat.mod_lt n positive
  unfold nearestEven
  dsimp only
  split
  next up =>
    rw [Nat.add_mul, Nat.one_mul, Nat.mul_comm (n / unit)]
    omega
  next down =>
    rw [Nat.mul_comm (n / unit)]
    omega

theorem nearestEven_one (n : Nat) : nearestEven n 1 = n := by
  have bounds := nearestEven_bounds n Nat.one_pos
  omega

theorem halfEven_bounds (n k : Nat) :
    2 * n ≤ 2 * (halfEven n k * tenPow k) + tenPow k ∧
      2 * (halfEven n k * tenPow k) ≤ 2 * n + tenPow k :=
  nearestEven_bounds n (tenPow_pos k)

namespace Decimal

theorem dropDigits?_eq_some {n : Int} {scale dropped : Nat} {d : Decimal} :
    dropDigits? n scale dropped = some d ↔
      d.coefficient = n.sign * halfEven n.natAbs dropped ∧ d.scale = scale - dropped :=
  ofParts?_eq_some

/-- Fitting drops the digits beyond the largest scale, and another one only if it has to. -/
theorem fit?_eq_some {n : Int} {scale : Nat} {d : Decimal} (fitted : fit? n scale = some d) :
    ∃ dropped, scale - maxScale ≤ dropped ∧ dropped ≤ scale ∧
      dropDigits? n scale dropped = some d ∧
      (dropped = scale - maxScale ∨
        scale - maxScale < dropped ∧ dropDigits? n scale (dropped - 1) = none) := by
  obtain ⟨before, dropped, after, digits, found, refused⟩ := List.findSome?_eq_some_iff.mp fitted
  obtain ⟨passed, within, rfl, rest⟩ := List.range'_eq_append_iff.mp digits
  obtain ⟨rfl, more, -⟩ := List.range'_eq_cons_iff.mp rest.symm
  refine ⟨_, by omega, by omega, found, ?_⟩
  cases passed with
  | zero => exact .inl (by omega)
  | succ passed =>
    -- The number of digits tried just before was refused.
    exact .inr ⟨by omega, refused _ (List.mem_range'_1.mpr (by omega))⟩

/-- Rounding digits away is off by half a unit of the last digit kept. -/
theorem dropDigits?_error {n : Int} {scale dropped : Nat} {d : Decimal}
    (rounded : dropDigits? n scale dropped = some d) :
    |2 * (d.coefficient * tenPow dropped - n)| ≤ tenPow dropped := by
  obtain ⟨coefficient, -⟩ := dropDigits?_eq_some.mp rounded
  obtain ⟨below, above⟩ := halfEven_bounds n.natAbs dropped
  generalize halfEven n.natAbs dropped = kept at coefficient below above
  have low : (2 * n.natAbs : Int) ≤ 2 * (kept * tenPow dropped) + tenPow dropped := by
    exact_mod_cast below
  have high : (2 * (kept * tenPow dropped) : Int) ≤ 2 * n.natAbs + tenPow dropped := by
    exact_mod_cast above
  rw [abs_le, coefficient]
  rcases lt_trichotomy n 0 with negative | rfl | positive
  · rw [Int.sign_eq_neg_one_of_neg negative, neg_one_mul, neg_mul]
    omega
  · simp
  · rw [Int.sign_eq_one_of_pos positive, one_mul]
    omega

/-- A digit more would not have fitted only because the number is large. -/
theorem le_natAbs_of_dropDigits?_eq_none {n : Int} {scale dropped : Nat}
    (within : scale - maxScale ≤ dropped) (refused : dropDigits? n scale dropped = none) :
    (2 * coefficientBound - 1) * tenPow dropped ≤ 2 * n.natAbs := by
  have full : coefficientBound ≤ halfEven n.natAbs dropped := by
    rcases ofParts?_eq_none.mp refused with full | deep
    · refine full.trans ?_
      rw [Int.natAbs_mul, Int.natAbs_natCast, Int.natAbs_sign]
      split <;> simp
    · omega
  have scaled := Nat.mul_le_mul_right (tenPow dropped) full
  have above := (halfEven_bounds n.natAbs dropped).2
  simp only [coefficientBound] at scaled ⊢
  omega

/-- Fitting takes the coefficient nearest to the value at the largest scale that leaves it in
range. -/
theorem fit?_nearest {n : Int} {scale : Nat} {d : Decimal} (fitted : fit? n scale = some d) :
    Nearest d.coefficient d.scale (n / 10 ^ scale) := by
  obtain ⟨dropped, -, within, rounded, least⟩ := fit?_eq_some fitted
  obtain ⟨-, scaled⟩ := dropDigits?_eq_some.mp rounded
  have error : |2 * (d.coefficient * 10 ^ dropped - n : ℚ)| ≤ 10 ^ dropped := by
    rw [← cast_tenPow]
    exact_mod_cast dropDigits?_error rounded
  have kept : (n : ℚ) / 10 ^ scale * 10 ^ (d.scale : Int) = n / 10 ^ dropped := by
    rw [zpow_natCast, scaled, ← Nat.sub_add_cancel within, Nat.add_sub_cancel, pow_add]
    field_simp
  refine ⟨?_, ?_⟩
  · rw [kept]
    have unit : (0 : ℚ) < 10 ^ dropped := by positivity
    rw [abs_mul, abs_of_pos two_pos] at error
    have apart : (d.coefficient : ℚ) - n / 10 ^ dropped
        = (d.coefficient * 10 ^ dropped - n) / 10 ^ dropped := by
      field_simp
    rw [apart, abs_div, abs_of_pos unit, div_le_div_iff₀ unit two_pos]
    linarith
  · rcases least with rfl | ⟨deep, refused⟩
    · rcases Nat.le_total scale maxScale with short | long
      · -- Nothing is dropped, so nothing is lost.
        have exact := dropDigits?_error rounded
        rw [Nat.sub_eq_zero_of_le short] at exact kept
        have same : d.coefficient = n := by
          simp only [tenPow_zero, abs_le] at exact
          omega
        exact .inl (by rw [kept, same, pow_zero, div_one])
      · exact .inr (.inl (by omega))
    · -- A digit more was refused, so the number is large.
      refine .inr (.inr ?_)
      have large := le_natAbs_of_dropDigits?_eq_none (by omega) refused
      obtain ⟨fewer, rfl⟩ : ∃ fewer, dropped = fewer + 1 := ⟨dropped - 1, by omega⟩
      have size : (2 * coefficientBound - 1 : Nat) * (10 : ℚ) ^ fewer ≤ 2 * |(n : ℚ)| := by
        rw [← cast_tenPow, ← Int.cast_abs, Int.abs_eq_natAbs]
        exact_mod_cast large
      have unit : (0 : ℚ) < 10 ^ fewer := by positivity
      have value :
          |(n : ℚ) / 10 ^ scale| * 10 ^ ((d.scale : Int) + 1) = |(n : ℚ)| / 10 ^ fewer := by
        rw [zpow_add_one₀ (by norm_num), ← mul_assoc,
          ← abs_of_pos (by positivity : (0 : ℚ) < 10 ^ (d.scale : Int)), ← abs_mul, kept, abs_div,
          abs_of_pos (by positivity : (0 : ℚ) < 10 ^ (fewer + 1)), pow_succ]
        field_simp
      rw [value, le_div_iff₀ unit]
      norm_num [coefficientBound] at size ⊢
      linarith

/-- Fitting is off by half of the last digit, which is the last digit of the largest scale or of a
full coefficient. -/
theorem fit?_rounded {n : Int} {scale : Nat} {d : Decimal} (fitted : fit? n scale = some d) :
    d.Rounded (n / 10 ^ scale) := by
  have error := (fit?_nearest fitted).error
  rwa [zpow_natCast, ← toRat_eq] at error

theorem fit?_faithful {n : Int} {scale : Nat} {d : Decimal} (fitted : fit? n scale = some d) :
    Faithful d.toRat (n / 10 ^ scale) := by
  have faithful := (fit?_nearest fitted).faithful
  rwa [zpow_natCast, ← toRat_eq] at faithful

theorem fit?_nonneg {n : Int} {scale : Nat} {d : Decimal} (fitted : fit? n scale = some d)
    (nonneg : 0 ≤ n) : 0 ≤ d.toRat := by
  obtain ⟨dropped, -, -, rounded, -⟩ := fit?_eq_some fitted
  obtain ⟨coefficient, -⟩ := dropDigits?_eq_some.mp rounded
  refine toRat_nonneg ?_
  rw [coefficient]
  exact mul_nonneg (Int.sign_nonneg_iff.mpr nonneg) (Int.natCast_nonneg _)

/-- What is in range already stays as it is. -/
theorem fit?_of_inRange {n : Int} {scale : Nat} (small : n.natAbs < coefficientBound)
    (short : scale ≤ maxScale) : fit? n scale = some ⟨n, scale, small, short⟩ := by
  have first : dropDigits? n scale 0 = some ⟨n, scale, small, short⟩ := by
    rw [dropDigits?_eq_some, halfEven, tenPow_zero, nearestEven_one, Int.sign_mul_natAbs]
    exact ⟨rfl, rfl⟩
  rw [fit?, Nat.sub_eq_zero_of_le short, Nat.sub_zero, List.range'_succ, List.findSome?_cons, first]

theorem isZero_iff {d : Decimal} : d.isZero = true ↔ d.toRat = 0 := by
  simp [isZero, toRat_eq]

/-! ### Products -/

theorem toRat_mul (a b : Decimal) :
    a.toRat * b.toRat = (a.coefficient * b.coefficient : Int) / 10 ^ (a.scale + b.scale) := by
  rw [toRat_eq, toRat_eq, div_mul_div_comm, pow_add, Int.cast_mul]

/-- A product of which no digit would remain is below half of the last digit. -/
theorem toRat_mul_tiny {a b : Decimal} (left : a.coefficient.natAbs < 0x100000000)
    (right : b.coefficient.natAbs < 0x100000000) (deep : 47 < a.scale + b.scale) :
    |a.toRat * b.toRat| < 1 / 2 / 10 ^ 28 := by
  have size : |((a.coefficient * b.coefficient : Int) : ℚ)| ≤ 2 * 10 ^ 19 := by
    have bound := Nat.mul_le_mul left.le right.le
    rw [← Int.natAbs_mul] at bound
    rw [← Int.cast_abs, Int.abs_eq_natAbs]
    exact_mod_cast bound.trans (by decide)
  have scaled : (10 : ℚ) ^ 48 ≤ 10 ^ (a.scale + b.scale) :=
    pow_le_pow_right₀ (by norm_num) deep
  rw [toRat_mul, abs_div, abs_of_pos (by positivity : (0 : ℚ) < 10 ^ (a.scale + b.scale)), div_div,
    div_lt_div_iff₀ (by positivity) (by positivity)]
  linarith

theorem mul?_rounded {a b product : Decimal} (multiplied : a.mul? b = some product) :
    product.Rounded (a.toRat * b.toRat) := by
  unfold mul? at multiplied
  split at multiplied
  next zero =>
    cases multiplied
    refine .of_eq ?_
    rcases zero with zero | zero <;> simp [isZero_iff.mp zero]
  next =>
    split at multiplied
    next tiny =>
      cases multiplied
      obtain ⟨left, right, deep⟩ := tiny
      unfold Rounded
      rw [toRat_zero, zero_sub, abs_neg]
      refine (toRat_mul_tiny left right deep).le.trans ?_
      gcongr
      exact le_max_left _ _
    next =>
      rw [toRat_mul]
      exact fit?_rounded multiplied

theorem mul?_faithful {a b product : Decimal} (multiplied : a.mul? b = some product) :
    Faithful product.toRat (a.toRat * b.toRat) := by
  unfold mul? at multiplied
  split at multiplied
  next zero =>
    cases multiplied
    have exact : a.toRat * b.toRat = (0 : Decimal).toRat := by
      rcases zero with zero | zero <;> simp [isZero_iff.mp zero]
    exact exact ▸ .refl _
  next =>
    split at multiplied
    next tiny =>
      cases multiplied
      obtain ⟨left, right, deep⟩ := tiny
      have small := toRat_mul_tiny left right deep
      rw [toRat_zero]
      exact .zero (small.trans (by norm_num))
    next =>
      rw [toRat_mul]
      exact fit?_faithful multiplied

theorem mul?_near {a b product : Decimal} (multiplied : a.mul? b = some product) :
    product.Near (a.toRat * b.toRat) :=
  (mul?_rounded multiplied).near

theorem mul?_nonneg {a b product : Decimal} (multiplied : a.mul? b = some product)
    (left : 0 ≤ a.toRat) (right : 0 ≤ b.toRat) : 0 ≤ product.toRat := by
  unfold mul? at multiplied
  split at multiplied
  next => cases multiplied; exact toRat_zero.ge
  next =>
    split at multiplied
    next => cases multiplied; exact toRat_zero.ge
    next =>
      exact fit?_nonneg multiplied (mul_nonneg (coefficient_nonneg left) (coefficient_nonneg right))

/-! ### Sums and differences -/

/-- At their common scale two decimals are added as integers. -/
theorem toRat_add (a b : Decimal) :
    a.toRat + b.toRat
      = (a.coefficientAt (a.commonScale b) + b.coefficientAt (a.commonScale b) : Int)
        / 10 ^ a.commonScale b := by
  rw [a.toRat_eq_coefficientAt (Nat.le_max_left a.scale b.scale),
    b.toRat_eq_coefficientAt (Nat.le_max_right a.scale b.scale), ← add_div, Int.cast_add]
  rfl

theorem add?_rounded {a b sum : Decimal} (added : a.add? b = some sum) :
    sum.Rounded (a.toRat + b.toRat) := by
  unfold add? at added
  split at added
  next zero =>
    cases added
    exact .of_eq (by rw [isZero_iff.mp zero, zero_add])
  next =>
    split at added
    next zero =>
      cases added
      exact .of_eq (by rw [isZero_iff.mp zero, add_zero])
    next =>
      rw [toRat_add]
      exact fit?_rounded added

theorem add?_faithful {a b sum : Decimal} (added : a.add? b = some sum) :
    Faithful sum.toRat (a.toRat + b.toRat) := by
  unfold add? at added
  split at added
  next zero =>
    cases added
    rw [isZero_iff.mp zero, zero_add]
    exact .refl _
  next =>
    split at added
    next zero =>
      cases added
      rw [isZero_iff.mp zero, add_zero]
      exact .refl _
    next =>
      rw [toRat_add]
      exact fit?_faithful added

theorem sub?_faithful {a b rest : Decimal} (left : a.sub? b = some rest) :
    Faithful rest.toRat (a.toRat - b.toRat) := by
  have faithful := add?_faithful left
  rwa [toRat_neg, ← sub_eq_add_neg] at faithful

theorem add?_nonneg {a b sum : Decimal} (added : a.add? b = some sum) (left : 0 ≤ a.toRat)
    (right : 0 ≤ b.toRat) : 0 ≤ sum.toRat := by
  have scaled {d : Decimal} (nonneg : 0 ≤ d.toRat) (scale : Nat) : 0 ≤ d.coefficientAt scale :=
    mul_nonneg (coefficient_nonneg nonneg) (Int.natCast_nonneg _)
  unfold add? at added
  split at added
  next => cases added; exact right
  next =>
    split at added
    next => cases added; exact left
    next => exact fit?_nonneg added (add_nonneg (scaled left _) (scaled right _))

/-- A sum between zero and one is exact. -/
theorem add?_share {a b sum : Decimal} (nonneg : 0 ≤ a.toRat + b.toRat)
    (share : a.toRat + b.toRat ≤ 1) (added : a.add? b = some sum) :
    sum.toRat = a.toRat + b.toRat := by
  unfold add? at added
  split at added
  next zero =>
    cases added
    rw [isZero_iff.mp zero, zero_add]
  next =>
    split at added
    next zero =>
      cases added
      rw [isZero_iff.mp zero, add_zero]
    next =>
      -- At the common scale both are integers below the bound of coefficients.
      dsimp only at added
      have scale : a.commonScale b ≤ maxScale := Nat.max_le.mpr ⟨a.scale_le, b.scale_le⟩
      have unit : (0 : ℚ) < 10 ^ a.commonScale b := by positivity
      have value := toRat_add a b
      generalize a.coefficientAt (a.commonScale b) + b.coefficientAt (a.commonScale b)
        = n at added value
      have positive : (0 : ℚ) ≤ n := by
        rw [eq_div_iff unit.ne'] at value
        rw [← value]
        exact mul_nonneg nonneg unit.le
      have atMost : (n : ℚ) ≤ 10 ^ a.commonScale b := by rwa [← div_le_one unit, ← value]
      have small : n.natAbs < coefficientBound := by
        rw [← cast_tenPow] at atMost
        have low : 0 ≤ n := by exact_mod_cast positive
        have high : n ≤ tenPow (a.commonScale b) := by exact_mod_cast atMost
        have wide : tenPow (a.commonScale b) ≤ tenPow 28 :=
          Nat.pow_le_pow_right (by decide) scale
        have bound : tenPow 28 < coefficientBound := by decide
        omega
      rw [fit?_of_inRange small scale] at added
      cases added
      rw [value, toRat_eq]

/-- A difference of shares is exact. -/
theorem sub?_toRat {a b rest : Decimal} (nonneg : 0 ≤ b.toRat) (below : b.toRat ≤ a.toRat)
    (share : a.toRat ≤ 1) (left : a.sub? b = some rest) : rest.toRat = a.toRat - b.toRat := by
  have whole : a.toRat + (-b).toRat = a.toRat - b.toRat := by rw [toRat_neg, sub_eq_add_neg]
  rw [← whole]
  exact add?_share (by rw [whole]; linarith) (by rw [whole]; linarith) left

/-- What a share leaves of one is exact. -/
theorem one_sub?_toRat {rate rest : Decimal} (nonneg : 0 ≤ rate.toRat) (below : rate.toRat ≤ 1)
    (left : (1 : Decimal).sub? rate = some rest) : rest.toRat = 1 - rate.toRat := by
  have difference := sub?_toRat nonneg (below.trans toRat_one.ge) toRat_one.le left
  rwa [toRat_one] at difference

end Decimal

end Stablecoin
