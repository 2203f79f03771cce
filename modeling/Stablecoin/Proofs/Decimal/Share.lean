import Stablecoin.Proofs.Decimal.Quotient

/-!
# Shares and units

A product with a share, a decimal between zero and one, never leaves the range and is never more
than the other factor, however it is rounded. Products with one and quotients by one are exact.
-/
namespace Stablecoin

/-- Rounding to nearest does not pass a multiple of the unit. -/
theorem nearestEven_le {n unit most : Nat} (positive : 0 < unit) (within : n ≤ most * unit) :
    nearestEven n unit ≤ most := by
  by_contra beyond
  have above := (nearestEven_bounds n positive).2
  have more := Nat.mul_le_mul_right unit (Nat.lt_of_not_le beyond)
  rw [Nat.succ_mul] at more
  omega

namespace Decimal

/-- Digits that do not reach a coefficient in range can be dropped. -/
theorem dropDigits?_ne_none {n : Int} {a : Decimal} {digits dropped : Nat}
    (within : n.natAbs ≤ a.coefficient.natAbs * tenPow digits) (enough : digits ≤ dropped) :
    dropDigits? n (a.scale + digits) dropped ≠ none := by
  intro refused
  have wide : tenPow digits ≤ tenPow dropped := Nat.pow_le_pow_right (by decide) enough
  have kept : halfEven n.natAbs dropped ≤ a.coefficient.natAbs :=
    nearestEven_le (tenPow_pos dropped) (within.trans (Nat.mul_le_mul_left _ wide))
  have inRange := a.coefficient_lt
  have short := a.scale_le
  have sign : n.sign.natAbs ≤ 1 := by
    rw [Int.natAbs_sign]
    split <;> decide
  have size := Nat.mul_le_mul_right (halfEven n.natAbs dropped) sign
  rcases ofParts?_eq_none.mp refused with full | deep
  · rw [Int.natAbs_mul, Int.natAbs_natCast] at full
    omega
  · omega

/-- What is no more than a decimal fits into the range and stays no more than it. -/
theorem fit?_of_le {n : Int} {a : Decimal} {digits : Nat} (nonneg : 0 ≤ n)
    (within : n ≤ a.coefficient * tenPow digits) :
    ∃ d, fit? n (a.scale + digits) = some d ∧ d.toRat ≤ a.toRat := by
  have positive : 0 ≤ a.coefficient := by
    have unit : (0 : Int) < tenPow digits := by exact_mod_cast tenPow_pos digits
    exact nonneg_of_mul_nonneg_left (nonneg.trans within) unit
  have size : n.natAbs ≤ a.coefficient.natAbs * tenPow digits := by
    zify
    rwa [abs_of_nonneg nonneg, abs_of_nonneg positive]
  have short := a.scale_le
  have some' : (fit? n (a.scale + digits)).isSome := by
    refine List.findSome?_isSome_iff.mpr ⟨digits, List.mem_range'_1.mpr (by omega), ?_⟩
    exact Option.isSome_iff_ne_none.mpr (dropDigits?_ne_none size le_rfl)
  obtain ⟨d, fitted⟩ := Option.isSome_iff_exists.mp some'
  refine ⟨d, fitted, ?_⟩
  obtain ⟨dropped, -, -, rounded, least⟩ := fit?_eq_some fitted
  -- The first number of digits tried is at most this one, and this one would have been accepted.
  have few : dropped ≤ digits := by
    by_contra more
    rcases least with first | ⟨-, refused⟩
    · omega
    · exact dropDigits?_ne_none size (by omega) refused
  obtain ⟨coefficient, scale⟩ := dropDigits?_eq_some.mp rounded
  obtain ⟨left, rfl⟩ : ∃ left, digits = dropped + left := Nat.exists_eq_add_of_le few
  have kept : halfEven n.natAbs dropped ≤ a.coefficient.natAbs * tenPow left := by
    refine nearestEven_le (tenPow_pos dropped) ?_
    rwa [Nat.mul_assoc, ← tenPow_add, Nat.add_comm left]
  have larger : a.scale ≤ d.scale := by omega
  have deeper : d.scale - a.scale = left := by omega
  have below : d.coefficient ≤ a.coefficientAt d.scale := by
    rw [coefficient, coefficientAt, deeper]
    zify at kept
    rw [abs_of_nonneg positive] at kept
    rcases nonneg.eq_or_lt with rfl | above
    · rw [Int.sign_zero, zero_mul]
      positivity
    · rwa [Int.sign_eq_one_of_pos above, one_mul]
  rw [toRat_eq, a.toRat_eq_coefficientAt larger]
  gcongr

/-- A share of a decimal is in range, and no more than the decimal. -/
theorem mul?_share {a share : Decimal} (nonneg : 0 ≤ a.toRat) (low : 0 ≤ share.toRat)
    (high : share.toRat ≤ 1) :
    ∃ product, a.mul? share = some product ∧ product.toRat ≤ a.toRat := by
  unfold mul?
  split
  next => exact ⟨0, rfl, toRat_zero.trans_le nonneg⟩
  next =>
    split
    next => exact ⟨0, rfl, toRat_zero.trans_le nonneg⟩
    next =>
      have left := coefficient_nonneg nonneg
      have right := coefficient_nonneg low
      have atMost : share.coefficient ≤ tenPow share.scale := by
        rw [toRat_eq, div_le_one (by positivity), ← cast_tenPow] at high
        exact_mod_cast high
      exact fit?_of_le (mul_nonneg left right) (mul_le_mul_of_nonneg_left atMost left)

/-! ### Zero and one -/

theorem zero_mul? (a : Decimal) : (0 : Decimal).mul? a = some 0 := by
  unfold mul?
  exact if_pos (.inl rfl)

theorem zero_div? {a : Decimal} (nonzero : a.isZero = false) : (0 : Decimal).div? a = some 0 := by
  unfold div?
  rw [if_neg (by simp [nonzero])]
  exact if_pos rfl

theorem mul?_one {a : Decimal} (whole : a.scale = 0) : a.mul? 1 = some a := by
  have unit : (1 : Decimal).coefficient = 1 ∧ (1 : Decimal).scale = 0 := ⟨rfl, rfl⟩
  unfold mul?
  split
  next zero =>
    -- The only zero without digits behind the point is the plain one.
    have none : a.coefficient = 0 := by simpa [isZero, unit] using zero
    obtain ⟨coefficient, scale, _, _⟩ := a
    cases whole
    cases none
    rfl
  next =>
    rw [if_neg (by rw [whole, unit.2]; omega), unit.1, unit.2, mul_one, add_zero]
    exact fit?_of_inRange a.coefficient_lt a.scale_le

/-- Dividing by one leaves the value as it is. -/
theorem div?_one_toRat {a quotient : Decimal} (divided : a.div? 1 = some quotient) :
    quotient.toRat = a.toRat := by
  by_cases zero : a.isZero = true
  · rw [div?_of_isZero divided zero, toRat_zero, isZero_iff.mp zero]
  · -- The division comes out even at once.
    have even : LongDivision.run 1 58 ⟨a.coefficient.natAbs / 1, a.coefficient.natAbs % 1,
        (a.scale : Int) - 0, false⟩ = some ⟨a.coefficient.natAbs, 0, a.scale, false⟩ := by
      simp [LongDivision.run, Nat.mod_one]
    unfold div? at divided
    rw [if_neg (by decide), if_neg zero] at divided
    obtain ⟨done, finished, placed⟩ := Option.bind_eq_some_iff.mp divided
    obtain rfl := Option.some.inj (even.symm.trans finished)
    obtain ⟨coefficient, scale⟩ := ofParts?_eq_some.mp placed
    have unit : (1 : Decimal).coefficient.sign = 1 := rfl
    rw [if_neg Bool.false_ne_true] at coefficient scale
    rw [unit, mul_one, Int.sign_mul_natAbs] at coefficient
    rw [toRat_eq, toRat_eq, coefficient, scale, Int.toNat_natCast]

end Decimal

end Stablecoin
