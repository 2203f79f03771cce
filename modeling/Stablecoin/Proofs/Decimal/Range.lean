import Stablecoin.Proofs.Decimal.Share

/-!
# When results are in range

A difference that is not negative is in range, and so are a sum, a product and a quotient that are
at most the largest decimal. One can be added to every decimal that is not negative except to the
largest.
-/
namespace Stablecoin.Decimal

/-! ### Differences -/

section Difference

variable {a b rest : Decimal}

/-- A difference that is not negative is in range. -/
theorem sub?_of_le (nonneg : 0 ≤ b.toRat) (below : b.toRat ≤ a.toRat) :
    ∃ rest, a.sub? b = some rest ∧ 0 ≤ rest.toRat := by
  unfold sub? add?
  split
  next zero =>
    have none : a.toRat = 0 := isZero_iff.mp zero
    exact ⟨-b, rfl, by rw [toRat_neg]; linarith⟩
  next =>
    split
    next => exact ⟨a, rfl, nonneg.trans below⟩
    next =>
      -- At the common scale what is left is an integer no more than the first operand.
      have value := toRat_add a (-b)
      have scale : a.commonScale (-b) = a.scale + (a.commonScale (-b) - a.scale) :=
        (Nat.add_sub_cancel' (Nat.le_max_left _ _)).symm
      have taken : (-b).coefficientAt (a.commonScale (-b)) ≤ 0 :=
        mul_nonpos_of_nonpos_of_nonneg (neg_nonpos.mpr (coefficient_nonneg nonneg))
          (Int.natCast_nonneg _)
      have within : a.coefficientAt (a.commonScale (-b)) + (-b).coefficientAt (a.commonScale (-b))
          ≤ a.coefficient * tenPow (a.commonScale (-b) - a.scale) :=
        add_le_of_nonpos_right taken
      dsimp only
      generalize a.coefficientAt (a.commonScale (-b)) + (-b).coefficientAt (a.commonScale (-b))
        = n at value within
      have positive : 0 ≤ n := by
        rw [toRat_neg, ← sub_eq_add_neg, eq_div_iff (by positivity)] at value
        have cast : (0 : ℚ) ≤ n := by
          rw [← value]
          exact mul_nonneg (sub_nonneg.mpr below) (by positivity)
        exact_mod_cast cast
      rw [scale]
      obtain ⟨rest, fitted, -⟩ := fit?_of_le positive within
      exact ⟨rest, fitted, fit?_nonneg fitted positive⟩

/-- Two decimals that differ do so by a last digit of the largest scale. -/
theorem le_sub_of_lt (below : b.toRat < a.toRat) : 1 / 10 ^ 28 ≤ a.toRat - b.toRat := by
  have value := toRat_add a (-b)
  have scale : (10 : ℚ) ^ a.commonScale (-b) ≤ 10 ^ 28 :=
    pow_le_pow_right₀ (by norm_num) (Nat.max_le.mpr ⟨a.scale_le, b.scale_le⟩)
  generalize a.coefficientAt (a.commonScale (-b)) + (-b).coefficientAt (a.commonScale (-b))
    = n at value
  rw [toRat_neg, ← sub_eq_add_neg] at value
  have one : (1 : ℚ) ≤ n := by
    have positive : (0 : ℚ) < n := by
      rw [eq_div_iff (by positivity)] at value
      rw [← value]
      exact mul_pos (sub_pos.mpr below) (by positivity)
    exact_mod_cast positive
  rw [value]
  gcongr

/-- What is left of a larger decimal is positive, however it is rounded. -/
theorem sub?_pos (below : b.toRat < a.toRat) (left : a.sub? b = some rest) : 0 < rest.toRat := by
  have apart := le_sub_of_lt below
  have rounded : rest.Rounded (a.toRat + (-b).toRat) := add?_rounded left
  rw [toRat_neg, ← sub_eq_add_neg] at rounded
  have near := rounded.ge (sub_nonneg.mpr below.le)
  rcases max_cases (1 / 2) (a.toRat - b.toRat) with ⟨larger, -⟩ | ⟨larger, -⟩
  all_goals
    rw [larger] at near
    linarith

end Difference

/-! ### Sums -/

/-- The largest decimal. -/
def largest : Decimal where
  coefficient := 0xffffffffffffffffffffffff
  scale := 0
  scale_le := Nat.zero_le maxScale

theorem largest_toRat : largest.toRat = 2 ^ 96 - 1 := by
  rw [toRat_eq]
  norm_num [largest]

/-- All other decimals are smaller than the largest by at least one. -/
theorem le_largest_sub_one {d : Decimal} (other : d ≠ largest) :
    d.toRat ≤ largest.toRat - 1 := by
  obtain ⟨coefficient, scale, inRange, short⟩ := d
  simp only [coefficientBound] at inRange
  rw [largest_toRat, toRat_eq]
  dsimp only
  rcases Nat.eq_zero_or_pos scale with rfl | digits
  · -- Without digits behind the point only the coefficient can differ.
    have apart : coefficient ≠ 0xffffffffffffffffffffffff := by
      rintro rfl
      exact other rfl
    have below : coefficient ≤ 0xfffffffffffffffffffffffe := by omega
    have cast : (coefficient : ℚ) ≤ 0xfffffffffffffffffffffffe := by exact_mod_cast below
    rw [pow_zero, div_one]
    linarith
  · have wide : (10 : ℚ) ≤ 10 ^ scale := by
      simpa using pow_le_pow_right₀ (by norm_num : (1 : ℚ) ≤ 10) digits
    have below : coefficient ≤ 0xffffffffffffffffffffffff := by omega
    have cast : (coefficient : ℚ) ≤ 0xffffffffffffffffffffffff := by exact_mod_cast below
    rw [div_le_iff₀ (by positivity)]
    linarith

theorem toRat_le_largest (d : Decimal) : d.toRat ≤ largest.toRat := by
  rcases eq_or_ne d largest with rfl | other
  · exact le_rfl
  · linarith [le_largest_sub_one other]

/-- A sum that is at most the largest decimal is in range. -/
theorem add?_of_le {a b : Decimal} (left : 0 ≤ a.toRat) (right : 0 ≤ b.toRat)
    (within : a.toRat + b.toRat ≤ largest.toRat) : ∃ sum, a.add? b = some sum := by
  unfold add?
  split
  next => exact ⟨b, rfl⟩
  next =>
    split
    next => exact ⟨a, rfl⟩
    next =>
      have value := toRat_add a b
      dsimp only
      generalize a.coefficientAt (a.commonScale b) + b.coefficientAt (a.commonScale b) = n at value
      generalize a.commonScale b = scale at value
      rw [eq_div_iff (by positivity)] at value
      have nonneg : 0 ≤ n := by
        have cast : (0 : ℚ) ≤ n := by
          rw [← value]
          positivity
        exact_mod_cast cast
      have atMost : n ≤ largest.coefficient * tenPow scale := by
        have cast : (n : ℚ) ≤ largest.coefficient * (tenPow scale : Nat) := by
          rw [← value, cast_tenPow]
          refine mul_le_mul_of_nonneg_right (within.trans_eq ?_) (by positivity)
          rw [toRat_eq, largest, pow_zero, div_one]
        exact_mod_cast cast
      have room := fit?_of_le nonneg atMost
      rw [show largest.scale = 0 from rfl, Nat.zero_add] at room
      obtain ⟨sum, fitted, -⟩ := room
      exact ⟨sum, fitted⟩

/-- One more than a decimal is out of range for the largest decimal only. -/
theorem one_add?_eq_none {d : Decimal} (nonneg : 0 ≤ d.toRat) :
    (1 : Decimal).add? d = none ↔ d = largest := by
  constructor
  · intro overflowed
    by_contra other
    have below := le_largest_sub_one other
    obtain ⟨sum, added⟩ :=
      add?_of_le (toRat_one.ge.trans' zero_le_one) nonneg (by rw [toRat_one]; linarith)
    cases overflowed.symm.trans added
  · rintro rfl
    rfl

/-- One and a decimal that is not negative add up to more than any decimal below one, however the
sum is rounded. -/
theorem lt_one_add? {d share sum : Decimal} (nonneg : 0 ≤ d.toRat) (below : share.toRat < 1)
    (added : (1 : Decimal).add? d = some sum) : share.toRat < sum.toRat := by
  rcases nonneg.eq_or_lt with zero | positive
  · have none : d.isZero = true := isZero_iff.mpr zero.symm
    rw [add?, if_neg (by decide), if_pos none] at added
    cases added
    rwa [toRat_one]
  · have apart : 1 / 10 ^ 28 ≤ (1 : Decimal).toRat - share.toRat :=
      le_sub_of_lt (below.trans_eq toRat_one.symm)
    have least := le_of_pos positive
    have rounded := (add?_rounded added).ge (by rw [toRat_one]; linarith)
    rw [toRat_one] at apart rounded
    rw [max_eq_right (by linarith)] at rounded
    linarith

/-! ### Quotients -/

namespace LongDivision

variable {divisor rounds : Nat} {x : ℚ} {state : LongDivision}

/-- Digits before the point do not take a quotient out of range. -/
theorem Divides.quotient_lt (dividing : state.Divides divisor x) (within : x ≤ largest.toRat)
    (before : state.scale ≤ 0) : state.quotient < coefficientBound := by
  obtain ⟨low, -⟩ := dividing.bounds
  have unit : (0 : ℚ) < 10 ^ state.scale := by positivity
  have nonneg : 0 ≤ x := nonneg_of_mul_nonneg_left ((Nat.cast_nonneg _).trans low) unit
  have small : x * 10 ^ state.scale ≤ x :=
    mul_le_of_le_one_right nonneg (zpow_le_one_of_nonpos₀ (by norm_num) before)
  exact lt_coefficientBound_of_le (low.trans (small.trans within))

theorem Divides.extend_lt (dividing : state.Divides divisor x) (digits : Nat) :
    (state.extend divisor digits).quotient < state.quotient * tenPow digits + tenPow digits := by
  have part : state.remainder * tenPow digits / divisor < tenPow digits := by
    rw [Nat.div_lt_iff_lt_mul ((Nat.zero_le _).trans_lt dividing.remainder), Nat.mul_comm]
    exact Nat.mul_lt_mul_of_pos_left dividing.remainder (tenPow_pos digits)
  exact Nat.add_lt_add_left part _

theorem roundOff_of_le (dividing : state.Divides divisor x) (within : x ≤ largest.toRat)
    (inRange : state.quotient < coefficientBound) (placed : 0 ≤ state.scale)
    (short : state.scale ≤ maxScale) (rest : state.remainder ≠ 0) :
    ∃ done, state.roundOff divisor = some done ∧ done.quotient < coefficientBound ∧
      done.scale ≤ maxScale := by
  unfold roundOff
  split
  next =>
    split
    next fits => exact ⟨_, rfl, fits, short⟩
    next carry =>
      rw [if_neg]
      · exact ⟨_, rfl, show halfEven coefficientBound 1 < coefficientBound by decide,
          by dsimp only; omega⟩
      · -- An integer that is rounded up out of range exceeds the largest decimal.
        intro before
        have whole : state.scale = 0 := le_antisymm before placed
        have last : state.quotient = coefficientBound - 1 := by omega
        have part : (0 : ℚ) < state.remainder / divisor := by
          have positive := Nat.pos_of_ne_zero rest
          have divisor := positive.trans dividing.remainder
          positivity
        have exact := dividing.exact
        rw [whole, last, zpow_zero, mul_one] at exact
        rw [largest_toRat] at within
        norm_num [coefficientBound] at exact
        linarith
  next => exact ⟨_, rfl, inRange, short⟩

theorem dropLast_of_le (dividing : state.Divides divisor x) (within : x ≤ largest.toRat)
    (beyond : coefficientBound ≤ state.quotient)
    (hardly : state.quotient < coefficientBound + tenPow 9) (short : state.scale ≤ maxScale) :
    ∃ done, state.dropLast divisor = some done ∧ done.quotient < coefficientBound ∧
      done.scale ≤ maxScale := by
  unfold dropLast
  rw [if_neg fun before => beyond.not_gt (dividing.quotient_lt within before)]
  rw [show tenPow 9 = 1000000000 from rfl] at hardly
  refine ⟨_, rfl, ?_, ?_⟩ <;> dsimp only
  · simp only [coefficientBound] at hardly ⊢
    split <;> omega
  · omega

/-- A division whose quotient is in range finishes in range, for it gains a digit in every round
but the last. -/
theorem run_of_le (dividing : state.Divides divisor x) (within : x ≤ largest.toRat)
    (inRange : state.quotient < coefficientBound) (short : state.scale ≤ maxScale)
    (enough : maxScale - state.scale < rounds) :
    ∃ done, run divisor rounds state = some done ∧ done.quotient < coefficientBound ∧
      done.scale ≤ maxScale := by
  induction rounds generalizing state with
  | zero => omega
  | succ rounds ih =>
    unfold run
    dsimp only
    split
    next even =>
      split
      next => exact ⟨state, rfl, inRange, short⟩
      next before =>
        -- The zeros that are missing before the point do not lead out of range.
        have next := (dividing.extend (min 9 (-state.scale).toNat)).quotient_lt within
          (by simp only [LongDivision.extend]; omega)
        have fits : state.quotient * tenPow (min 9 (-state.scale).toNat) < coefficientBound := by
          simpa [LongDivision.extend, even] using next
        rw [if_pos fits]
        refine ih (dividing.extend _) next ?_ ?_ <;> simp only [LongDivision.extend] <;> omega
    next rest =>
      have dividing : ({ state with inexact := true } : LongDivision).Divides divisor x :=
        ⟨dividing.exact, dividing.remainder⟩
      obtain ⟨nine, fits, full⟩ := room_spec state.quotient state.scale
      generalize room state.quotient state.scale = digits at nine fits full
      split
      next large =>
        -- A digit more would still have been before the point, and so within range.
        have next := (dividing.extend (digits + 1)).quotient_lt within
          (by simp only [LongDivision.extend]; omega)
        have more : state.quotient * tenPow (digits + 1) < coefficientBound :=
          (Nat.le_add_right _ _).trans_lt next
        have refused := full large.1
        omega
      next placed =>
        split
        next none =>
          exact roundOff_of_le dividing within inRange (by dsimp only; omega) short rest
        next some =>
          obtain ⟨below, deep⟩ := fits.resolve_left some
          split
          next fits =>
            refine ih (dividing.extend _) fits ?_ ?_ <;> simp only [LongDivision.extend] <;> omega
          next beyond =>
            have size := dividing.extend_lt digits
            have wide : tenPow digits ≤ tenPow 9 := Nat.pow_le_pow_right (by decide) nine
            refine dropLast_of_le (dividing.extend _) within (Nat.not_lt.mp beyond) ?_ ?_
            · dsimp only at size ⊢
              omega
            · simp only [LongDivision.extend]
              omega

theorem shed_le (factor digits : Nat) :
    (state.shed factor digits).quotient ≤ state.quotient ∧
      (state.shed factor digits).scale ≤ state.scale := by
  unfold LongDivision.shed
  split
  next => exact ⟨Nat.div_le_self _ _, by dsimp only; omega⟩
  next => exact ⟨le_rfl, le_rfl⟩

theorem shedZeros_le : state.shedZeros.quotient ≤ state.quotient ∧
    state.shedZeros.scale ≤ state.scale := by
  have step (tests : List (Nat × Nat)) (s : LongDivision) :
      (tests.foldl (fun s t => s.shed t.1 t.2) s).quotient ≤ s.quotient ∧
        (tests.foldl (fun s t => s.shed t.1 t.2) s).scale ≤ s.scale := by
    induction tests generalizing s with
    | nil => exact ⟨le_rfl, le_rfl⟩
    | cons test tests ih =>
      obtain ⟨quotient, scale⟩ := ih (s.shed test.1 test.2)
      obtain ⟨quotient', scale'⟩ := s.shed_le test.1 test.2
      exact ⟨quotient.trans quotient', scale.trans scale'⟩
  exact step _ state

end LongDivision

/-- A quotient that is at most the largest decimal is in range. -/
theorem div?_of_le {a b : Decimal} (nonneg : 0 ≤ a.toRat) (positive : 0 < b.toRat)
    (within : a.toRat / b.toRat ≤ largest.toRat) : ∃ quotient, a.div? b = some quotient := by
  have divisor : b.isZero = false :=
    Bool.eq_false_of_not_eq_true (isZero_iff.not.mpr positive.ne')
  unfold div?
  rw [divisor, if_neg Bool.false_ne_true]
  split
  next => exact ⟨0, rfl⟩
  next nonzero =>
    have dividing := start_divides (a := a) divisor
    rw [← toRat_eq_natAbs nonneg, ← toRat_eq_natAbs positive.le] at dividing
    have short := a.scale_le
    have short' := b.scale_le
    have enough : (maxScale : Int) - (a.scale - b.scale) < (58 : Nat) := by
      simp only [maxScale] at short' ⊢
      omega
    obtain ⟨done, finished, small, deep⟩ := LongDivision.run_of_le dividing within
      ((Nat.div_le_self _ _).trans_lt a.coefficient_lt) (by dsimp only; omega) enough
    obtain ⟨fewer, less⟩ := done.shedZeros_le
    have placed (done' : LongDivision) (fits : done'.quotient < coefficientBound)
        (deep : done'.scale ≤ maxScale) : ∃ quotient,
        ofParts? (a.coefficient.sign * b.coefficient.sign * done'.quotient) done'.scale.toNat
          = some quotient := by
      refine Option.ne_none_iff_exists'.mp fun refused => ?_
      have sign := sign_eq_one nonneg (Bool.eq_false_of_not_eq_true nonzero)
      rw [sign, sign_eq_one positive.le divisor, one_mul, one_mul] at refused
      rcases ofParts?_eq_none.mp refused with full | deep <;> omega
    simp only [finished, Option.bind_eq_bind, Option.bind_some]
    split
    next => exact placed _ (fewer.trans_lt small) (less.trans deep)
    next => exact placed _ small deep

end Stablecoin.Decimal
