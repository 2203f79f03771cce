import Stablecoin.Proofs.Decimal.Monotone

/-!
# The order of quotients

A quotient depends on the digits in which its operands are written: a half behind the last digit is
rounded up by a long divisor and to the even neighbour by a short one. So quotients of one value may
differ, but of two values the larger one is never rounded to less. And where the largest scale is
reached before the range of coefficients is, all halves go to the even neighbour and the quotient
depends on the value alone.
-/
namespace Stablecoin.Decimal

/-! ### Decimals that are nearest coefficients -/

/-- A decimal that is the nearest coefficient at a scale to a value, from which zeros may have been
shed. -/
structure IsNearest (d : Decimal) (c s : Int) (x : ℚ) : Prop where
  value : d.toRat = c / 10 ^ s
  scale : d.scale ≤ s
  nearest : NearestEven c s x

namespace IsNearest

variable {a b d : Decimal} {c s c' s' : Int} {x y : ℚ}

theorem faithful (rounded : d.IsNearest c s x) : Faithful d.toRat x :=
  rounded.value ▸ rounded.nearest.faithful

theorem toRat_of_exact (rounded : d.IsNearest c s x) (exact' : (c : ℚ) = x * 10 ^ s) :
    d.toRat = x := by
  rw [rounded.value, exact', mul_div_assoc, div_self (by positivity), mul_one]

/-- At a scale that holds its digits the decimal is as close to the value as the coefficient. -/
theorem error_mul (rounded : d.IsNearest c s x) {t : Nat} (zeros : Nat) (held : d.scale ≤ t)
    (deep : s = (t + zeros : Nat)) :
    |(d.coefficientAt t : ℚ) - x * 10 ^ t| * 10 ^ zeros = |(c : ℚ) - x * 10 ^ s| := by
  have value := rounded.value
  rw [d.toRat_eq_coefficientAt held, deep, zpow_natCast, pow_add, div_eq_div_iff (by positivity)
    (by positivity), ← mul_assoc, mul_right_comm, mul_left_inj' (by positivity)] at value
  rw [← value, deep, zpow_natCast, pow_add, ← mul_assoc, ← sub_mul, abs_mul,
    abs_of_pos (by positivity : (0 : ℚ) < 10 ^ zeros)]

theorem error (rounded : d.IsNearest c s x) {t : Nat} (held : d.scale ≤ t) (within : t ≤ s) :
    |(d.coefficientAt t : ℚ) - x * 10 ^ t| ≤ 1 / 2 := by
  have scaled := rounded.error_mul (s - t).toNat held (by omega)
  calc |(d.coefficientAt t : ℚ) - x * 10 ^ t|
      ≤ |(d.coefficientAt t : ℚ) - x * 10 ^ t| * 10 ^ (s - t).toNat :=
        le_mul_of_one_le_right (abs_nonneg _) (one_le_pow₀ (by norm_num))
    _ = |(c : ℚ) - x * 10 ^ s| := scaled
    _ ≤ 1 / 2 := rounded.nearest.half

/-- Of two values the larger one is not rounded to less. -/
theorem le_of_lt (rounded : a.IsNearest c s x) (rounded' : b.IsNearest c' s' y) (nonneg : 0 ≤ x)
    (below : x < y) : a.toRat ≤ b.toRat := by
  have short := a.scale_le
  have short' := b.scale_le
  rcases lt_or_ge s' a.scale with deeper | held
  · -- What the larger value is rounded to has no room for the digits of the smaller one.
    rcases rounded'.nearest.deepest with exact' | deep | full
    · exact rounded.faithful.le b (below.le.trans_eq (rounded'.toRat_of_exact exact').symm)
    · omega
    · rw [abs_of_nonneg (nonneg.trans below.le)] at full
      exact rounded'.faithful.ge a (toRat_le_of_full (nonneg.trans below.le) full deeper)
  · rcases lt_or_ge s b.scale with deeper | held'
    · -- If the smaller value is not exact, the larger one has no room for more digits either.
      rcases rounded.nearest.deepest with exact' | deep | full
      · exact rounded'.faithful.ge a ((rounded.toRat_of_exact exact').trans_le below.le)
      · omega
      · rw [abs_of_nonneg nonneg] at full
        have most := coefficient_add_half_le nonneg full deeper
        have least := (abs_le.mp (rounded'.error le_rfl rounded'.scale)).1
        have less : x * 10 ^ b.scale < y * 10 ^ b.scale := by gcongr
        rw [coefficientAt, Nat.sub_self, tenPow_zero, Nat.cast_one, mul_one] at least
        linarith
    · -- At a scale that holds the digits of both they are integers.
      have left := rounded.scale
      have right := rounded'.scale
      have error := (abs_le.mp (rounded.error (Nat.le_max_left a.scale b.scale) (by omega))).2
      have error' := (abs_le.mp (rounded'.error (Nat.le_max_right a.scale b.scale) (by omega))).1
      have less : x * 10 ^ max a.scale b.scale < y * 10 ^ max a.scale b.scale := by gcongr
      have close : (a.coefficientAt (max a.scale b.scale) : ℚ)
          < b.coefficientAt (max a.scale b.scale) + 1 := by
        linarith
      have whole : a.coefficientAt (max a.scale b.scale) ≤ b.coefficientAt (max a.scale b.scale) :=
        Int.lt_add_one_iff.mp (by exact_mod_cast close)
      exact le_iff_toRat.mp whole

/-- Where the largest scale comes before the range of coefficients, the decimal is nearest there
with halves to the even neighbour. -/
theorem even_of_small (rounded : d.IsNearest c s x) (nonneg : 0 ≤ x)
    (small : x * 10 ^ 28 < coefficientBound - 1 / 2) :
    |(d.coefficientAt 28 : ℚ) - x * 10 ^ 28| ≤ 1 / 2 ∧
      (|(d.coefficientAt 28 : ℚ) - x * 10 ^ 28| = 1 / 2 → Even (d.coefficientAt 28)) := by
  have deepest : d.toRat = x ∨ (28 : Nat) ≤ s := by
    rcases rounded.nearest.deepest with exact' | deep | full
    · exact .inl (rounded.toRat_of_exact exact')
    · exact .inr deep
    · refine .inr (Int.not_lt.mp fun short => ?_)
      have wide : (10 : ℚ) ^ (s + 1) ≤ 10 ^ 28 := by
        rw [← zpow_natCast]
        exact zpow_le_zpow_right₀ (by norm_num) short
      rw [abs_of_nonneg nonneg] at full
      exact absurd (full.trans (mul_le_mul_of_nonneg_left wide nonneg)) small.not_ge
  rcases deepest with exact' | deep
  · have same : (d.coefficientAt 28 : ℚ) = x * 10 ^ 28 := by
      rw [← exact', d.toRat_eq_coefficientAt d.scale_le, div_mul_cancel₀ _ (by positivity)]
    rw [same, sub_self, abs_zero]
    exact ⟨by norm_num, fun half => by norm_num at half⟩
  · refine ⟨rounded.error d.scale_le deep, fun tie => ?_⟩
    -- With more digits than the largest scale has there would be no tie.
    have held : d.scale ≤ 28 := d.scale_le
    have scaled := rounded.error_mul (s - 28).toNat held (by omega)
    have half := rounded.nearest.half
    rw [← scaled, tie] at half
    have none : (s - 28).toNat = 0 := by
      by_contra more
      have wide : (10 : ℚ) ≤ 10 ^ (s - 28).toNat := le_self_pow₀ (by norm_num) more
      linarith
    have last : s = (28 : Nat) := by omega
    have same : d.coefficientAt 28 = c := by
      have value := rounded.value
      rw [d.toRat_eq_coefficientAt d.scale_le, last, zpow_natCast,
        div_left_inj' (by positivity)] at value
      exact_mod_cast value
    rw [none, pow_zero, mul_one, tie] at scaled
    rw [same]
    exact rounded.nearest.even (by omega) scaled.symm

/-- The decimal that a small value is rounded to depends on the value alone, and does not become
less as it grows. -/
theorem le_of_small (rounded : a.IsNearest c s x) (rounded' : b.IsNearest c' s' y) (nonneg : 0 ≤ x)
    (below : x ≤ y) (small : y * 10 ^ 28 < coefficientBound - 1 / 2) : a.toRat ≤ b.toRat := by
  have scaled : x * 10 ^ 28 ≤ y * 10 ^ 28 := by gcongr
  obtain ⟨error, even⟩ := rounded.even_of_small nonneg (scaled.trans_lt small)
  obtain ⟨error', even'⟩ := rounded'.even_of_small (nonneg.trans below) small
  rw [a.toRat_eq_coefficientAt a.scale_le, b.toRat_eq_coefficientAt b.scale_le]
  generalize a.coefficientAt 28 = n at error even ⊢
  generalize b.coefficientAt 28 = m at error' even' ⊢
  have ordered : n ≤ m := by
    by_contra beyond
    -- Neighbours would both be half a unit from one value, and both even.
    have step : (m : ℚ) + 1 ≤ n := by exact_mod_cast Int.not_le.mp beyond
    obtain ⟨-, high⟩ := abs_le.mp error
    obtain ⟨low, -⟩ := abs_le.mp error'
    have up : (n : ℚ) - x * 10 ^ 28 = 1 / 2 := by linarith
    have down : (m : ℚ) - y * 10 ^ 28 = -(1 / 2) := by linarith
    have next : n = m + 1 := by
      have cast : (n : ℚ) = m + 1 := by linarith
      exact_mod_cast cast
    have left := even (by rw [up, abs_of_pos (by norm_num)])
    have right := even' (by rw [down, abs_neg, abs_of_pos (by norm_num)])
    rw [next, Int.even_add_one] at left
    exact left right
  gcongr

end IsNearest

/-! ### Quotients -/

section Quotient

variable {a b c d quotient quotient' : Decimal}

theorem div?_isNearest (divided : a.div? b = some quotient) (left : 0 ≤ a.toRat)
    (right : 0 ≤ b.toRat) : ∃ c s, quotient.IsNearest c s (a.toRat / b.toRat) := by
  by_cases zero : a.isZero = true
  · rw [div?_of_isZero divided zero, isZero_iff.mp zero, zero_div]
    refine ⟨0, 0, by norm_num, le_rfl, ⟨by norm_num, .inl (by norm_num)⟩, fun deep => ?_⟩
    norm_num at deep
  · replace zero := Bool.eq_false_of_not_eq_true zero
    obtain ⟨divisor, done, rounds, coefficient, scale⟩ := div?_eq_some divided zero
    have placed := rounds.scale
    obtain ⟨-, -, n, digits, same, short, nearest⟩ := rounds
    rw [← toRat_eq_natAbs left, ← toRat_eq_natAbs right] at nearest
    rw [sign_eq_one left zero, sign_eq_one right divisor, one_mul, one_mul] at coefficient
    refine ⟨n, digits, ?_, by omega, nearest⟩
    rw [toRat_eq, coefficient, scale, ← zpow_natCast, Int.toNat_of_nonneg placed, Int.cast_natCast,
      same, Int.cast_natCast]

/-- A larger dividend does not make a quotient smaller. -/
theorem div?_mono_left (divided : a.div? c = some quotient) (divided' : b.div? c = some quotient')
    (nonneg : 0 ≤ a.toRat) (positive : 0 < c.toRat) (below : a = b ∨ a.toRat < b.toRat) :
    quotient.toRat ≤ quotient'.toRat := by
  rcases below with rfl | below
  · rw [divided] at divided'
    cases divided'
    exact le_rfl
  · obtain ⟨_, _, rounded⟩ := div?_isNearest divided nonneg positive.le
    obtain ⟨_, _, rounded'⟩ := div?_isNearest divided' (nonneg.trans below.le) positive.le
    exact rounded.le_of_lt rounded' (by positivity) (div_lt_div_of_pos_right below positive)

/-- A larger divisor does not make a quotient larger. -/
theorem div?_mono_right (divided : a.div? b = some quotient) (divided' : a.div? c = some quotient')
    (nonneg : 0 ≤ a.toRat) (positive : 0 < b.toRat) (below : b.toRat < c.toRat) :
    quotient'.toRat ≤ quotient.toRat := by
  rcases nonneg.eq_or_lt with zero | above
  · have none : a.isZero = true := isZero_iff.mpr zero.symm
    rw [div?_of_isZero divided none, div?_of_isZero divided' none]
  · obtain ⟨_, _, rounded⟩ := div?_isNearest divided nonneg positive.le
    obtain ⟨_, _, rounded'⟩ := div?_isNearest divided' nonneg (positive.trans below).le
    have unit := positive.trans below
    exact rounded'.le_of_lt rounded (by positivity) (div_lt_div_of_pos_left above positive below)

/-- Quotients small enough to be held at the largest scale keep the order of the dividends, equal
ones included. -/
theorem div?_mono_of_small (divided : a.div? c = some quotient)
    (divided' : b.div? c = some quotient') (nonneg : 0 ≤ a.toRat) (positive : 0 < c.toRat)
    (below : a.toRat ≤ b.toRat) (small : b.toRat ≤ c.toRat) :
    quotient.toRat ≤ quotient'.toRat := by
  obtain ⟨_, _, rounded⟩ := div?_isNearest divided nonneg positive.le
  obtain ⟨_, _, rounded'⟩ := div?_isNearest divided' (nonneg.trans below) positive.le
  have share : b.toRat / c.toRat ≤ 1 := (div_le_one positive).mpr small
  refine rounded.le_of_small rounded' (by positivity) (by gcongr) ?_
  norm_num [coefficientBound]
  linarith

end Quotient

/-! ### Products of whole amounts -/

section Product

variable {n m scale dropped : Nat} {a b c d product product' : Decimal}

/-- The dropped digits are replaced by zeros. -/
private theorem toRat_of_dropDigits? (within : dropped ≤ scale)
    (rounded : dropDigits? n scale dropped = some d) :
    d.toRat = (halfEven n dropped * tenPow dropped : Nat) / 10 ^ scale := by
  rw [dropDigits?_natCast, ofParts?_eq_some] at rounded
  obtain ⟨coefficient, place⟩ := rounded
  obtain ⟨kept, rfl⟩ := Nat.exists_eq_add_of_le' within
  rw [toRat_eq, coefficient, place, Nat.add_sub_cancel, Nat.cast_mul, cast_tenPow, pow_add,
    mul_div_mul_right _ _ (by positivity), Int.cast_natCast]

/-- Numbers in one unit are fitted to one decimal or to different values. -/
theorem fit?_eq_or_lt (fitted : fit? n scale = some a) (fitted' : fit? m scale = some b)
    (below : n ≤ m) : a = b ∨ a.toRat < b.toRat := by
  obtain ⟨dropped, first, within, rounded, least⟩ := fit?_eq_some fitted
  obtain ⟨dropped', first', within', rounded', least'⟩ := fit?_eq_some fitted'
  have value := toRat_of_dropDigits? within rounded
  have value' := toRat_of_dropDigits? within' rounded'
  have fits := halfEven_lt rounded
  rcases lt_trichotomy dropped dropped' with fewer | rfl | more
  · -- A number that loses more digits is larger than all coefficients with one digit less.
    obtain ⟨kept, rfl⟩ : ∃ kept, dropped' = kept + 1 := ⟨dropped' - 1, by omega⟩
    have large := le_natAbs_of_dropDigits?_eq_none (by omega) (least'.resolve_left (by omega)).2
    have rest := (halfEven_bounds m (kept + 1)).1
    rw [Int.natAbs_natCast, Nat.add_sub_cancel] at large
    have full : 2 * coefficientBound - 1 ≤ 20 * halfEven m (kept + 1) + 10 := by
      refine Nat.le_of_mul_le_mul_right (large.trans (rest.trans_eq ?_)) (tenPow_pos kept)
      rw [tenPow_succ]
      ring
    have narrow : tenPow dropped ≤ tenPow kept :=
      Nat.pow_le_pow_right (by decide) (Nat.le_of_lt_succ fewer)
    have apart : halfEven n dropped * tenPow dropped
        < halfEven m (kept + 1) * tenPow (kept + 1) := by
      calc halfEven n dropped * tenPow dropped ≤ halfEven n dropped * tenPow kept :=
            Nat.mul_le_mul_left _ narrow
        _ < halfEven m (kept + 1) * 10 * tenPow kept := by
          refine Nat.mul_lt_mul_of_pos_right ?_ (tenPow_pos kept)
          simp only [coefficientBound] at fits full
          omega
        _ = halfEven m (kept + 1) * tenPow (kept + 1) := by rw [tenPow_succ]; ring
    rw [value, value']
    exact .inr (div_lt_div_of_pos_right (by exact_mod_cast apart) (by positivity))
  · -- The same digits are dropped, so the decimals differ in the coefficient only.
    have ordered : halfEven n dropped ≤ halfEven m dropped :=
      nearestEven_mono (tenPow_pos _) (tenPow_pos _) (Nat.mul_le_mul_right _ below)
    refine ordered.eq_or_lt.imp (fun same => ?_) fun less => ?_
    · rw [dropDigits?_natCast] at rounded rounded'
      rw [same] at rounded
      exact Option.some.inj (rounded.symm.trans rounded')
    · rw [value, value']
      refine div_lt_div_of_pos_right ?_ (by positivity)
      exact_mod_cast Nat.mul_lt_mul_of_pos_right less (tenPow_pos dropped)
  · -- What does not fit for the smaller number does not fit for the larger one.
    have full := le_halfEven (by omega) (least.resolve_left (by omega)).2
    have fits' := halfEven_lt rounded'
    have wide : tenPow dropped' ≤ tenPow (dropped - 1) :=
      Nat.pow_le_pow_right (by decide) (Nat.le_sub_one_of_lt more)
    have ordered : halfEven n (dropped - 1) ≤ halfEven m dropped' :=
      nearestEven_mono (tenPow_pos _) (tenPow_pos _) (Nat.mul_le_mul below wide)
    omega

/-- Products of whole numbers with one factor are the same decimal or different values. -/
theorem mul?_eq_or_lt (multiplied : a.mul? c = some product) (multiplied' : b.mul? c = some product')
    (whole : a.scale = 0) (whole' : b.scale = 0) (nonneg : 0 ≤ a.toRat) (factor : 0 ≤ c.toRat)
    (below : a.toRat ≤ b.toRat) : product = product' ∨ product.toRat < product'.toRat := by
  have short := c.scale_le
  have value : a.toRat = a.coefficient := by rw [toRat_eq, whole, pow_zero, div_one]
  have value' : b.toRat = b.coefficient := by rw [toRat_eq, whole', pow_zero, div_one]
  rcases factor.eq_or_lt with zero | positive
  · -- Without a factor both products are plain zero.
    have none : c.isZero = true := isZero_iff.mpr zero.symm
    rw [mul?, if_pos (.inr none)] at multiplied multiplied'
    exact .inl (Option.some.inj (multiplied.symm.trans multiplied'))
  · have other : ¬c.isZero = true := isZero_iff.not.mpr positive.ne'
    rcases nonneg.eq_or_lt with zero | above
    · have none : a.isZero = true := isZero_iff.mpr zero.symm
      rw [mul?, if_pos (.inl none)] at multiplied
      cases multiplied
      rcases (nonneg.trans below).eq_or_lt with zero' | above'
      · rw [mul?, if_pos (.inl (isZero_iff.mpr zero'.symm))] at multiplied'
        exact .inl (Option.some.inj multiplied')
      · -- A whole number that is not zero leaves no less than the factor.
        rw [value'] at above'
        have one : (1 : ℚ) ≤ b.coefficient := by exact_mod_cast above'
        refine .inr (lt_of_lt_of_le (toRat_zero.trans_lt positive) ?_)
        refine (mul?_faithful multiplied').ge c (le_mul_of_one_le_left factor ?_)
        rwa [value']
    · have nonzero : ¬a.isZero = true := isZero_iff.not.mpr above.ne'
      have nonzero' : ¬b.isZero = true := isZero_iff.not.mpr (above.trans_le below).ne'
      obtain ⟨n, small⟩ := Int.eq_ofNat_of_zero_le (coefficient_nonneg nonneg)
      obtain ⟨m, large⟩ := Int.eq_ofNat_of_zero_le (coefficient_nonneg (nonneg.trans below))
      obtain ⟨unit, digits⟩ := Int.eq_ofNat_of_zero_le (coefficient_nonneg factor)
      rw [value, value', small, large] at below
      -- The scales do not add up to enough for the products to be tiny.
      simp only [maxScale] at short
      rw [mul?, if_neg (by tauto), if_neg (by omega), small, whole, digits, ← Nat.cast_mul]
        at multiplied
      rw [mul?, if_neg (by tauto), if_neg (by omega), large, whole', digits, ← Nat.cast_mul]
        at multiplied'
      exact fit?_eq_or_lt multiplied multiplied'
        (Nat.mul_le_mul_right unit (by exact_mod_cast below))

end Product

end Stablecoin.Decimal
