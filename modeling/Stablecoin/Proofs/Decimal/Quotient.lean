import Mathlib.Algebra.Order.Field.Power
import Stablecoin.Proofs.Decimal.Fit

/-!
# How exact quotients are

A long division under way holds the exact quotient: what has been divided and what is still to be
divided add up to it at every round. The last rounding is off by half of the last digit, which is
the last digit of the largest scale or of a full coefficient.
-/
namespace Stablecoin.Decimal

namespace LongDivision

/-- A division under way of two numbers whose quotient is `x`. -/
structure Divides (divisor : Nat) (x : ℚ) (state : LongDivision) : Prop where
  exact : (state.quotient : ℚ) + state.remainder / divisor = x * 10 ^ state.scale
  remainder : state.remainder < divisor

/-- A finished division whose value is that of a nearest coefficient, from which zeros may have been
shed. -/
structure Rounds (x : ℚ) (state : LongDivision) : Prop where
  scale : 0 ≤ state.scale
  nonneg : 0 ≤ x
  nearest : ∃ (n : Nat) (digits : Int), (state.quotient : ℚ) / 10 ^ state.scale = n / 10 ^ digits ∧
    state.scale ≤ digits ∧ NearestEven n digits x

variable {divisor : Nat} {x : ℚ} {state done : LongDivision}

theorem Rounds.of_nearest (scale : 0 ≤ state.scale) (nonneg : 0 ≤ x)
    (nearest : NearestEven state.quotient state.scale x) : state.Rounds x :=
  ⟨scale, nonneg, _, _, rfl, le_rfl, nearest⟩

/-- A finished division is off by half of the last digit at most. -/
theorem Rounds.near (rounds : state.Rounds x) :
    |(state.quotient : ℚ) / 10 ^ state.scale - x| ≤ (1 + x) / 10 ^ 28 := by
  obtain ⟨-, nonneg, n, digits, same, -, nearest⟩ := rounds
  have error := nearest.error
  rw [abs_of_nonneg nonneg, Int.cast_natCast] at error
  rw [same]
  refine error.trans ?_
  gcongr
  exact max_le (by linarith) (by linarith)

/-- No decimal lies between a finished division and the exact quotient. -/
theorem Rounds.faithful (rounds : state.Rounds x) :
    Faithful (state.quotient / 10 ^ state.scale) x := by
  obtain ⟨-, -, n, digits, same, -, nearest⟩ := rounds
  have faithful := nearest.faithful
  rwa [Int.cast_natCast, ← same] at faithful

/-- More digits leave the exact quotient as it is. -/
theorem Divides.extend (dividing : state.Divides divisor x) (digits : Nat) :
    (state.extend divisor digits).Divides divisor x where
  exact := by
    have positive : (0 : ℚ) < divisor := by
      exact_mod_cast (Nat.zero_le _).trans_lt dividing.remainder
    have split : (state.remainder : ℚ) * 10 ^ digits
        = divisor * (state.remainder * tenPow digits / divisor : Nat)
          + (state.remainder * tenPow digits % divisor : Nat) := by
      rw [← cast_tenPow]
      exact_mod_cast (Nat.div_add_mod _ _).symm
    have shifted : (10 : ℚ) ^ (state.scale + digits) = 10 ^ state.scale * 10 ^ digits := by
      rw [zpow_add₀ (by norm_num), zpow_natCast]
    simp only [LongDivision.extend]
    rw [shifted, ← mul_assoc, ← dividing.exact, Nat.cast_add, Nat.cast_mul, cast_tenPow]
    field_simp
    linarith
  remainder := Nat.mod_lt _ ((Nat.zero_le _).trans_lt dividing.remainder)

/-- Of the numbers up to a bound the largest that passes a test is found, and zero if none does. -/
theorem largestPassing_spec (passes : Nat → Bool) (n : Nat) :
    ((List.range' 1 n).reverse.find? passes).getD 0 ≤ n ∧
      (((List.range' 1 n).reverse.find? passes).getD 0 = 0 ∨
        passes (((List.range' 1 n).reverse.find? passes).getD 0) = true) ∧
      (((List.range' 1 n).reverse.find? passes).getD 0 < n →
        passes (((List.range' 1 n).reverse.find? passes).getD 0 + 1) = false) := by
  induction n with
  | zero => exact ⟨le_rfl, .inl rfl, fun below => absurd below (Nat.not_lt_zero _)⟩
  | succ n ih =>
    rw [List.range'_concat, List.reverse_concat, List.find?_cons, Nat.one_mul, Nat.add_comm 1 n]
    obtain ⟨within, passing, refused⟩ := ih
    cases passed : passes (n + 1) with
    | true => exact ⟨le_rfl, .inr passed, fun below => absurd below (Nat.lt_irrefl _)⟩
    | false =>
      refine ⟨Nat.le_succ_of_le within, passing, fun below => ?_⟩
      rcases Nat.lt_succ_iff_lt_or_eq.mp below with fewer | last
      · exact refused fewer
      · rwa [last]

/-- The room is within the ranges of coefficient and scale, and as large as nine digits allow. -/
theorem room_spec (quotient : Nat) (scale : Int) :
    room quotient scale ≤ 9 ∧
      (room quotient scale = 0 ∨ quotient * tenPow (room quotient scale) < coefficientBound ∧
        scale + room quotient scale ≤ maxScale) ∧
      (room quotient scale < 9 → coefficientBound ≤ quotient * tenPow (room quotient scale + 1) ∨
        (maxScale : Int) ≤ scale + room quotient scale) := by
  obtain ⟨within, fits, refused⟩ := largestPassing_spec (fun digits : Nat =>
    decide (quotient * tenPow digits < coefficientBound ∧ scale + digits ≤ maxScale)) 9
  rw [decide_eq_true_eq] at fits
  refine ⟨within, fits, fun fewer => ?_⟩
  have beyond := of_decide_eq_false (refused fewer)
  change ¬(quotient * tenPow (room quotient scale + 1) < coefficientBound ∧
    scale + (room quotient scale + 1 : Nat) ≤ maxScale) at beyond
  omega

/-- No digit fits only behind a full coefficient or at the largest scale. -/
theorem room_eq_zero {quotient : Nat} {scale : Int} (none : room quotient scale = 0) :
    coefficientBound ≤ quotient * 10 ∨ (maxScale : Int) ≤ scale := by
  have full := (room_spec quotient scale).2.2
  rw [none] at full
  simpa [show tenPow 1 = 10 from rfl] using full (by decide)

/-- The quotient as it would be exactly, in units of its last digit. -/
theorem Divides.bounds (dividing : state.Divides divisor x) :
    (state.quotient : ℚ) ≤ x * 10 ^ state.scale ∧
      x * 10 ^ state.scale < state.quotient + 1 := by
  have positive : (0 : ℚ) < divisor := by
    exact_mod_cast (Nat.zero_le _).trans_lt dividing.remainder
  have part : (state.remainder : ℚ) / divisor < 1 := by
    rw [div_lt_one positive]
    exact_mod_cast dividing.remainder
  have rest : (0 : ℚ) ≤ (state.remainder : ℚ) / divisor := by positivity
  rw [← dividing.exact]
  exact ⟨by linarith, by linarith⟩

/-- A value with one digit less, off by half of the last digit of a full coefficient. -/
private theorem rounds_of_lastDigit {quotient : Nat} {scale : Int} {inexact : Bool}
    (placed : 0 < scale) (short : scale ≤ maxScale)
    (full : (coefficientBound : ℚ) - 1 / 2 ≤ x * 10 ^ scale)
    (near : |(10 * quotient : ℚ) - x * 10 ^ scale| ≤ 5) (remainder : Nat) :
    Rounds x ⟨quotient, remainder, scale - 1, inexact⟩ := by
  have tenth : (10 : ℚ) ^ scale = 10 * 10 ^ (scale - 1) := by
    rw [← zpow_one_add₀ (by norm_num), add_sub_cancel]
  have nonneg : 0 ≤ x := by
    have unit : (0 : ℚ) < 10 ^ scale := by positivity
    norm_num [coefficientBound] at full
    exact nonneg_of_mul_nonneg_left (by linarith) unit
  have last : (coefficientBound : ℚ) - 1 / 2 ≤ |x| * 10 ^ (scale - 1 + 1) := by
    rwa [sub_add_cancel, abs_of_nonneg nonneg]
  refine .of_nearest (by dsimp only; omega) nonneg ⟨⟨?_, .inr (.inr last)⟩, fun deep => ?_⟩
  · rw [tenth] at near
    rw [abs_le] at near ⊢
    rw [Int.cast_natCast]
    exact ⟨by linarith, by linarith⟩
  · dsimp only at deep
    omega

theorem roundOff_rounds (dividing : state.Divides divisor x)
    (inRange : state.quotient < coefficientBound)
    (full : coefficientBound ≤ state.quotient * 10 ∨ (maxScale : Int) ≤ state.scale)
    (placed : 0 ≤ state.scale) (short : state.scale ≤ maxScale) (nonneg : 0 ≤ x)
    (rounded : state.roundOff divisor = some done) : done.Rounds x := by
  obtain ⟨low, high⟩ := dividing.bounds
  have positive : (0 : ℚ) < divisor := by
    exact_mod_cast (Nat.zero_le _).trans_lt dividing.remainder
  have exact := dividing.exact
  -- A digit more would leave the range of coefficients or of scales.
  have deepest : (maxScale : Int) ≤ state.scale ∨
      (coefficientBound : ℚ) - 1 / 2 ≤ |x| * 10 ^ (state.scale + 1) := by
    refine full.symm.imp_right fun full => ?_
    have large : (coefficientBound : ℚ) ≤ state.quotient * 10 := by exact_mod_cast full
    rw [abs_of_nonneg nonneg, zpow_add_one₀ (by norm_num), ← mul_assoc]
    norm_num [coefficientBound] at large ⊢
    linarith
  have halved (half : (state.remainder : ℚ) / divisor = 1 / 2) :
      2 * state.remainder = divisor := by
    rw [div_eq_div_iff positive.ne' two_ne_zero, mul_comm] at half
    exact_mod_cast half.trans (one_mul _)
  unfold roundOff at rounded
  split at rounded
  next up =>
    have half : (1 : ℚ) / 2 ≤ state.remainder / divisor := by
      rw [div_le_div_iff₀ two_pos positive]
      exact_mod_cast (by omega : 1 * divisor ≤ state.remainder * 2)
    split at rounded
    next =>
      -- Rounding up leaves the coefficient in range.
      cases rounded
      refine .of_nearest placed nonneg ⟨⟨?_, .inr deepest⟩, fun _ tie => ?_⟩
      · rw [abs_le, Int.cast_natCast, Nat.cast_succ]
        exact ⟨by linarith, by linarith⟩
      · -- On a tie the odd quotient is rounded up.
        rw [Int.cast_natCast, Nat.cast_succ, ← exact, abs_of_nonneg (by linarith)] at tie
        have equal := halved (by linarith)
        exact_mod_cast (Nat.even_iff.mpr (by omega) : Even (state.quotient + 1))
    next carry =>
      split at rounded
      next => cases rounded
      next before =>
        -- Rounding up leads out of range, and the last digit is dropped instead.
        cases rounded
        have full : state.quotient = coefficientBound - 1 := by omega
        have fullRat : (state.quotient : ℚ) = 79228162514264337593543950335 := by
          rw [full]
          norm_num [coefficientBound]
        have kept : halfEven coefficientBound 1 = 7922816251426433759354395034 := by decide
        refine rounds_of_lastDigit (by omega) short (by norm_num [coefficientBound]; linarith) ?_ _
        rw [abs_le, kept]
        norm_num
        exact ⟨by linarith, by linarith⟩
  next down =>
    cases rounded
    have half : (state.remainder : ℚ) / divisor ≤ 1 / 2 := by
      rw [div_le_div_iff₀ positive two_pos]
      exact_mod_cast (by omega : state.remainder * 2 ≤ 1 * divisor)
    refine .of_nearest placed nonneg ⟨⟨?_, .inr deepest⟩, fun _ tie => ?_⟩
    · rw [abs_le, Int.cast_natCast]
      exact ⟨by linarith, by linarith⟩
    · rw [Int.cast_natCast, ← exact, sub_add_cancel_left, abs_neg, abs_of_nonneg (by positivity)]
        at tie
      have equal := halved tie
      exact_mod_cast (Nat.even_iff.mpr (by omega) : Even state.quotient)

theorem dropLast_rounds (dividing : state.Divides divisor x)
    (short : state.scale ≤ maxScale) (full : coefficientBound ≤ state.quotient)
    (rounded : state.dropLast divisor = some done) :
    done.Rounds x := by
  obtain ⟨low, high⟩ := dividing.bounds
  have large : (coefficientBound : ℚ) ≤ state.quotient := by exact_mod_cast full
  have split : (state.quotient : ℚ)
      = 10 * (state.quotient / 10 : Nat) + (state.quotient % 10 : Nat) := by
    exact_mod_cast (Nat.div_add_mod _ 10).symm
  have digit : ((state.quotient % 10 : Nat) : ℚ) ≤ 9 := by
    exact_mod_cast Nat.le_of_lt_succ (Nat.mod_lt state.quotient (by decide : 0 < 10))
  unfold dropLast at rounded
  split at rounded
  next => cases rounded
  next placed =>
    cases rounded
    have whole : (coefficientBound : ℚ) - 1 / 2 ≤ x * 10 ^ state.scale :=
      (sub_le_self _ (by norm_num)).trans (large.trans low)
    refine rounds_of_lastDigit (Int.not_le.mp placed) short whole ?_ _
    rw [abs_le]
    split
    next up =>
      have five : (5 : ℚ) ≤ (state.quotient % 10 : Nat) := by
        exact_mod_cast (by omega : 5 ≤ state.quotient % 10)
      rw [Nat.cast_succ]
      exact ⟨by linarith, by linarith⟩
    next down =>
      by_cases half : state.quotient % 10 = 5
      · -- A half that goes down has nothing behind it.
        have even : state.remainder = 0 := by
          by_contra rest
          exact down (.inr ⟨half, .inl rest⟩)
        have exact := dividing.exact
        rw [even, Nat.cast_zero, zero_div, add_zero] at exact
        rw [half] at split
        norm_num at split
        exact ⟨by linarith, by linarith⟩
      · have four : ((state.quotient % 10 : Nat) : ℚ) ≤ 4 := by
          exact_mod_cast (by omega : state.quotient % 10 ≤ 4)
        have nonneg : (0 : ℚ) ≤ (state.quotient % 10 : Nat) := by positivity
        exact ⟨by linarith, by linarith⟩

theorem run_rounds {rounds : Nat} (dividing : state.Divides divisor x)
    (inRange : state.quotient < coefficientBound) (short : state.scale ≤ maxScale) (nonneg : 0 ≤ x)
    (finished : run divisor rounds state = some done) : done.Rounds x := by
  -- Each round holds the same exact quotient, and the round that finishes rounds it.
  induction rounds generalizing state with
  | zero => cases finished
  | succ rounds ih =>
    unfold run at finished
    dsimp only at finished
    split at finished
    next even =>
      split at finished
      next placed =>
        -- Nothing is left to divide, so the quotient is exact.
        cases finished
        have exact := dividing.exact
        rw [even, Nat.cast_zero, zero_div, add_zero] at exact
        refine .of_nearest placed nonneg ⟨⟨?_, .inl exact⟩, fun _ tie => ?_⟩
        · rw [Int.cast_natCast, exact, sub_self, abs_zero]
          positivity
        · rw [Int.cast_natCast, exact, sub_self, abs_zero] at tie
          norm_num at tie
      next =>
        split at finished
        next fits =>
          refine ih (dividing.extend _) ?_ ?_ finished
          · simpa [LongDivision.extend, even] using fits
          · simp only [LongDivision.extend, maxScale]
            omega
        next => cases finished
    next =>
      have dividing : ({ state with inexact := true } : LongDivision).Divides divisor x :=
        ⟨dividing.exact, dividing.remainder⟩
      split at finished
      next => cases finished
      next placed =>
        split at finished
        next none =>
          -- No digit fits any more.
          exact roundOff_rounds dividing inRange (room_eq_zero none) (by dsimp only; omega) short
            nonneg finished
        next some =>
          have deeper := ((room_spec state.quotient state.scale).2.1.resolve_left some).2
          split at finished
          next fits => exact ih (dividing.extend _) fits deeper finished
          next full => exact dropLast_rounds (dividing.extend _) deeper (Nat.not_lt.mp full) finished

theorem Rounds.shed (rounds : state.Rounds x) (factor digits : Nat) :
    (state.shed factor digits).Rounds x := by
  unfold LongDivision.shed
  split
  next trailing =>
    obtain ⟨-, short, zeros⟩ := trailing
    have whole : (state.quotient : ℚ) = (state.quotient / tenPow digits : Nat) * 10 ^ digits := by
      rw [← cast_tenPow]
      exact_mod_cast (Nat.div_mul_cancel (Nat.dvd_of_mod_eq_zero zeros)).symm
    have same : ((state.quotient / tenPow digits : Nat) : ℚ) / 10 ^ (state.scale - digits)
        = state.quotient / 10 ^ state.scale := by
      rw [whole, zpow_sub₀ (by norm_num), zpow_natCast]
      field_simp
    obtain ⟨-, nonneg, n, kept, value, deep, nearest⟩ := rounds
    exact ⟨by dsimp only; omega, nonneg, n, kept, same.trans value, by dsimp only; omega, nearest⟩
  next => exact rounds

theorem Rounds.shedZeros (rounds : state.Rounds x) : state.shedZeros.Rounds x := by
  unfold LongDivision.shedZeros
  simp only [List.foldl_cons, List.foldl_nil]
  exact ((((((rounds.shed _ _).shed _ _).shed _ _).shed _ _).shed _ _).shed _ _)

end LongDivision

variable {a b quotient : Decimal}

theorem toRat_eq_natAbs {d : Decimal} (nonneg : 0 ≤ d.toRat) :
    d.toRat = d.coefficient.natAbs / 10 ^ d.scale := by
  rw [toRat_eq, ← Int.cast_natCast, Int.natAbs_of_nonneg (coefficient_nonneg nonneg)]

theorem toRat_eq_sign_mul (d : Decimal) :
    d.toRat = d.coefficient.sign * (d.coefficient.natAbs / 10 ^ d.scale) := by
  rw [toRat_eq, ← mul_div_assoc, ← Int.cast_natCast, ← Int.cast_mul, Int.sign_mul_natAbs]

/-- The division of two decimals that are not zero starts out holding their quotient. -/
theorem start_divides (nonzero : b.isZero = false) :
    LongDivision.Divides b.coefficient.natAbs
      ((a.coefficient.natAbs / 10 ^ a.scale : ℚ) / (b.coefficient.natAbs / 10 ^ b.scale))
      ⟨a.coefficient.natAbs / b.coefficient.natAbs, a.coefficient.natAbs % b.coefficient.natAbs,
        (a.scale : Int) - b.scale, false⟩ := by
  have positive : 0 < b.coefficient.natAbs := by
    simpa [isZero, Int.natAbs_pos] using nonzero
  have positiveRat : (0 : ℚ) < b.coefficient.natAbs := by exact_mod_cast positive
  have split : (a.coefficient.natAbs : ℚ)
      = b.coefficient.natAbs * (a.coefficient.natAbs / b.coefficient.natAbs : Nat)
        + (a.coefficient.natAbs % b.coefficient.natAbs : Nat) := by
    exact_mod_cast (Nat.div_add_mod _ _).symm
  refine ⟨?_, Nat.mod_lt _ positive⟩
  rw [zpow_sub₀ (by norm_num), zpow_natCast, zpow_natCast]
  field_simp
  linarith

/-- The rounded quotient of the magnitudes, with the sign of the quotient. -/
theorem div?_eq_some (divided : a.div? b = some quotient) (nonzero : a.isZero = false) :
    b.isZero = false ∧ ∃ done : LongDivision,
      done.Rounds ((a.coefficient.natAbs / 10 ^ a.scale : ℚ)
        / (b.coefficient.natAbs / 10 ^ b.scale)) ∧
      quotient.coefficient = a.coefficient.sign * b.coefficient.sign * done.quotient ∧
      quotient.scale = done.scale.toNat := by
  unfold div? at divided
  split at divided
  next => cases divided
  next other =>
    rw [nonzero, if_neg Bool.false_ne_true] at divided
    have divisor : b.isZero = false := by simpa using other
    refine ⟨divisor, ?_⟩
    obtain ⟨done, finished, placed⟩ := Option.bind_eq_some_iff.mp divided
    have nonneg : (0 : ℚ) ≤ (a.coefficient.natAbs / 10 ^ a.scale : ℚ)
        / (b.coefficient.natAbs / 10 ^ b.scale) := by
      positivity
    have inRange : a.coefficient.natAbs / b.coefficient.natAbs < coefficientBound :=
      (Nat.div_le_self _ _).trans_lt a.coefficient_lt
    have short : (a.scale : Int) - b.scale ≤ maxScale := by
      have few := a.scale_le
      omega
    have rounds :=
      LongDivision.run_rounds (start_divides divisor) inRange short nonneg finished
    obtain ⟨coefficient, scale⟩ := ofParts?_eq_some.mp placed
    split at coefficient
    next took => exact ⟨_, rounds.shedZeros, coefficient, by rwa [if_pos took] at scale⟩
    next even => exact ⟨_, rounds, coefficient, by rwa [if_neg even] at scale⟩

theorem div?_of_isZero (divided : a.div? b = some quotient) (zero : a.isZero = true) :
    quotient = 0 := by
  unfold div? at divided
  split at divided
  next => cases divided
  next =>
    cases divided
    rfl

theorem sign_eq_one {d : Decimal} (nonneg : 0 ≤ d.toRat) (nonzero : d.isZero = false) :
    d.coefficient.sign = 1 := by
  have other : d.coefficient ≠ 0 := by simpa [isZero] using nonzero
  have positive := coefficient_nonneg nonneg
  exact Int.sign_eq_one_of_pos (by omega)

theorem sign_cases {d : Decimal} (nonzero : d.isZero = false) :
    d.coefficient.sign = 1 ∨ d.coefficient.sign = -1 := by
  have other : d.coefficient ≠ 0 := by simpa [isZero] using nonzero
  rcases Int.lt_or_gt_of_ne other with negative | positive
  · exact .inr (Int.sign_eq_neg_one_of_neg negative)
  · exact .inl (Int.sign_eq_one_of_pos positive)

/-- The magnitudes are divided, and both signs are taken over. -/
theorem div?_signed (divided : a.div? b = some quotient) (nonzero : a.isZero = false) :
    ∃ (done : LongDivision) (x : ℚ), 0 ≤ x ∧ done.Rounds x ∧
      (quotient.toRat = done.quotient / 10 ^ done.scale ∧ a.toRat / b.toRat = x ∨
        quotient.toRat = -(done.quotient / 10 ^ done.scale) ∧ a.toRat / b.toRat = -x) := by
  obtain ⟨divisor, done, rounds, coefficient, scale⟩ := div?_eq_some divided nonzero
  have power : (10 : ℚ) ^ done.scale = 10 ^ quotient.scale := by
    rw [scale, ← zpow_natCast, Int.toNat_of_nonneg rounds.scale]
  have value : quotient.toRat
      = a.coefficient.sign * b.coefficient.sign * (done.quotient / 10 ^ done.scale) := by
    rw [toRat_eq, coefficient, power, Int.cast_mul, Int.cast_mul, Int.cast_natCast, mul_div_assoc]
  refine ⟨done, _, by positivity, rounds, ?_⟩
  rw [value, toRat_eq_sign_mul a, toRat_eq_sign_mul b]
  rcases sign_cases nonzero with up | down <;> rcases sign_cases divisor with up' | down'
  · exact .inl (by simp [up, up'])
  · exact .inr (by simp [up, down', div_neg])
  · exact .inr (by simp [down, up', neg_div])
  · exact .inl (by simp [down, down', neg_div_neg_eq])

theorem div?_near (divided : a.div? b = some quotient) : quotient.Near (a.toRat / b.toRat) := by
  by_cases zero : a.isZero = true
  · rw [div?_of_isZero divided zero, isZero_iff.mp zero, zero_div]
    exact .of_eq toRat_zero
  · obtain ⟨done, x, nonneg, rounds, signed⟩ :=
      div?_signed divided (Bool.eq_false_of_not_eq_true zero)
    unfold Near
    rcases signed with ⟨value, exact⟩ | ⟨value, exact⟩
    · rw [value, exact, abs_of_nonneg nonneg]
      exact rounds.near
    · rw [value, exact, neg_sub_neg, abs_sub_comm, abs_neg, abs_of_nonneg nonneg]
      exact rounds.near

theorem div?_faithful (divided : a.div? b = some quotient) :
    Faithful quotient.toRat (a.toRat / b.toRat) := by
  by_cases zero : a.isZero = true
  · rw [div?_of_isZero divided zero, isZero_iff.mp zero, zero_div, toRat_zero]
    exact .refl 0
  · obtain ⟨done, x, -, rounds, signed⟩ :=
      div?_signed divided (Bool.eq_false_of_not_eq_true zero)
    rcases signed with ⟨value, exact⟩ | ⟨value, exact⟩
    · rw [value, exact]
      exact rounds.faithful
    · rw [value, exact]
      exact rounds.faithful.neg

theorem div?_nonneg (divided : a.div? b = some quotient) (left : 0 ≤ a.toRat)
    (right : 0 ≤ b.toRat) : 0 ≤ quotient.toRat := by
  by_cases zero : a.isZero = true
  · rw [div?_of_isZero divided zero, toRat_zero]
  · replace zero := Bool.eq_false_of_not_eq_true zero
    obtain ⟨-, done, -, coefficient, -⟩ := div?_eq_some divided zero
    refine toRat_nonneg ?_
    rw [coefficient]
    have signs := mul_nonneg (Int.sign_nonneg_iff.mpr (coefficient_nonneg left))
      (Int.sign_nonneg_iff.mpr (coefficient_nonneg right))
    exact mul_nonneg signs (Int.natCast_nonneg _)

end Stablecoin.Decimal
