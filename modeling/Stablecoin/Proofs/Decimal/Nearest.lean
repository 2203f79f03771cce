import Mathlib.Algebra.Order.Field.Power
import Stablecoin.Proofs.Decimal.Value

/-!
# Rounding to the nearest coefficient

A coefficient that is nearest to an exact value, at the largest scale or behind a full range of
digits, is close to the value. And no decimal lies strictly between the two: whatever decimal bounds
the value bounds what it is rounded to, so comparisons with decimals survive the rounding.
-/
namespace Stablecoin.Decimal

/-! ### Faithful rounding -/

/-- No decimal lies strictly between a value and what it is rounded to. -/
structure Faithful (rounded x : ℚ) : Prop where
  ge : ∀ r : Decimal, r.toRat ≤ x → r.toRat ≤ rounded
  le : ∀ r : Decimal, x ≤ r.toRat → rounded ≤ r.toRat

namespace Faithful

variable {rounded x : ℚ}

theorem refl (x : ℚ) : Faithful x x := ⟨fun _ below => below, fun _ above => above⟩

theorem neg (faithful : Faithful rounded x) : Faithful (-rounded) (-x) where
  ge r below := by
    have mirrored := faithful.le (-r) (by rw [toRat_neg]; linarith)
    rw [toRat_neg] at mirrored
    linarith
  le r above := by
    have mirrored := faithful.ge (-r) (by rw [toRat_neg]; linarith)
    rw [toRat_neg] at mirrored
    linarith

/-- What is closer to zero than the last digit of the largest scale may go to zero. -/
theorem zero (tiny : |x| < 1 / 10 ^ 28) : Faithful 0 x where
  ge r below := by
    by_contra positive
    have least := le_of_pos (not_le.mp positive)
    linarith [(abs_lt.mp tiny).2]
  le r above := by
    by_contra negative
    have least : 1 / 10 ^ 28 ≤ (-r).toRat := le_of_pos (by rw [toRat_neg]; linarith)
    rw [toRat_neg] at least
    linarith [(abs_lt.mp tiny).1]

/-- A value that a decimal expresses is kept. -/
theorem eq_toRat {r : Decimal} (faithful : Faithful rounded r.toRat) : rounded = r.toRat :=
  le_antisymm (faithful.le r le_rfl) (faithful.ge r le_rfl)

/-- Whole numbers in range are decimals. -/
theorem natCast_le {n : Nat} (faithful : Faithful rounded x) (small : n < coefficientBound)
    (below : (n : ℚ) ≤ x) : (n : ℚ) ≤ rounded := by
  have whole := ofAmount_toRat (ofAmount_of_lt small)
  rw [← whole] at below ⊢
  exact faithful.ge _ below

theorem le_natCast {n : Nat} {d : Decimal} (faithful : Faithful d.toRat x) (above : x ≤ n) :
    d.toRat ≤ n := by
  rcases Nat.lt_or_ge n coefficientBound with small | large
  · have whole := ofAmount_toRat (ofAmount_of_lt small)
    rw [← whole] at above ⊢
    exact faithful.le _ above
  · -- Numbers out of range are larger than every decimal.
    by_contra beyond
    have within : (coefficientBound : ℚ) ≤ d.toRat := by
      have cast : (coefficientBound : ℚ) ≤ n := by exact_mod_cast large
      linarith
    exact absurd (lt_coefficientBound_of_le within) (Nat.lt_irrefl _)

end Faithful

/-! ### Nearest coefficients -/

/-- A coefficient at a scale is nearest to a value there, and unless it is exact, one digit more
would pass the largest scale or take the coefficient out of its range. -/
structure Nearest (coefficient scale : Int) (x : ℚ) : Prop where
  half : |(coefficient : ℚ) - x * 10 ^ scale| ≤ 1 / 2
  deepest : (coefficient : ℚ) = x * 10 ^ scale ∨ (maxScale : Int) ≤ scale ∨
    (coefficientBound : ℚ) - 1 / 2 ≤ |x| * 10 ^ (scale + 1)

/-- A value that leaves the range of coefficients with a digit more exceeds by half a unit whatever
has that digit. -/
theorem coefficient_add_half_le {d : Decimal} {scale : Int} {x : ℚ} (nonneg : 0 ≤ x)
    (full : (coefficientBound : ℚ) - 1 / 2 ≤ x * 10 ^ (scale + 1)) (deeper : scale < d.scale) :
    (d.coefficient : ℚ) + 1 / 2 ≤ x * 10 ^ d.scale := by
  have inRange : (d.coefficient : ℚ) + 1 ≤ coefficientBound := by
    have whole : d.coefficient + 1 ≤ coefficientBound := by
      have small := d.coefficient_lt
      omega
    exact_mod_cast whole
  have wide : (10 : ℚ) ^ (scale + 1) ≤ 10 ^ d.scale := by
    rw [← zpow_natCast]
    exact zpow_le_zpow_right₀ (by norm_num) deeper
  calc (d.coefficient : ℚ) + 1 / 2 = d.coefficient + 1 - 1 / 2 := by ring
    _ ≤ coefficientBound - 1 / 2 := sub_le_sub_right inRange _
    _ ≤ x * 10 ^ (scale + 1) := full
    _ ≤ x * 10 ^ d.scale := by gcongr

theorem toRat_le_of_full {d : Decimal} {scale : Int} {x : ℚ} (nonneg : 0 ≤ x)
    (full : (coefficientBound : ℚ) - 1 / 2 ≤ x * 10 ^ (scale + 1)) (deeper : scale < d.scale) :
    d.toRat ≤ x := by
  have most := coefficient_add_half_le nonneg full deeper
  rw [toRat_eq, div_le_iff₀ (by positivity)]
  linarith

namespace Nearest

variable {coefficient scale : Int} {x : ℚ}

theorem neg (nearest : Nearest coefficient scale x) : Nearest (-coefficient) scale (-x) where
  half := by
    rw [Int.cast_neg, neg_mul, neg_sub_neg, abs_sub_comm]
    exact nearest.half
  deepest := by
    rw [Int.cast_neg, neg_mul, neg_inj, abs_neg]
    exact nearest.deepest

/-- The error is half of the last digit of the largest scale or of a full coefficient. -/
theorem error (nearest : Nearest coefficient scale x) :
    |(coefficient : ℚ) / 10 ^ scale - x| ≤ max (1 / 2) |x| / 10 ^ 28 := by
  obtain ⟨half, deepest⟩ := nearest
  have unit : (0 : ℚ) < 10 ^ scale := by positivity
  have apart :
      (coefficient : ℚ) / 10 ^ scale - x = (coefficient - x * 10 ^ scale) / 10 ^ scale := by
    field_simp
  rw [apart, abs_div, abs_of_pos unit]
  rcases deepest with exact | deep | full
  · rw [exact, sub_self, abs_zero, zero_div]
    positivity
  · have last : (10 : ℚ) ^ 28 ≤ 10 ^ scale := zpow_le_zpow_right₀ (by norm_num) deep
    calc |(coefficient : ℚ) - x * 10 ^ scale| / 10 ^ scale ≤ 1 / 2 / 10 ^ 28 := by gcongr
      _ ≤ max (1 / 2) |x| / 10 ^ 28 := by
        gcongr
        exact le_max_left _ _
  · have large : (5 : ℚ) * 10 ^ 27 ≤ |x| * 10 ^ scale := by
      rw [zpow_add₀ (by norm_num), zpow_one] at full
      norm_num [coefficientBound] at full
      linarith
    calc |(coefficient : ℚ) - x * 10 ^ scale| / 10 ^ scale ≤ 1 / 2 / 10 ^ scale := by gcongr
      _ ≤ |x| / 10 ^ 28 := by
        rw [div_le_div_iff₀ unit (by positivity)]
        linarith
      _ ≤ max (1 / 2) |x| / 10 ^ 28 := by
        gcongr
        exact le_max_right _ _

/-- A decimal no more than the value is no more than the nearest coefficient. -/
private theorem ge (nearest : Nearest coefficient scale x) (r : Decimal) (below : r.toRat ≤ x) :
    r.toRat ≤ coefficient / 10 ^ scale := by
  obtain ⟨half, deepest⟩ := nearest
  have unit : (0 : ℚ) < 10 ^ scale := by positivity
  rw [abs_le] at half
  rw [toRat_eq] at below ⊢
  rcases le_or_gt (r.scale : Int) scale with short | long
  · -- At the scale of the coefficient the decimal is an integer too.
    obtain ⟨digits, rfl⟩ : ∃ digits : Nat, scale = (r.scale + digits : Nat) :=
      ⟨(scale - r.scale).toNat, by omega⟩
    rw [zpow_natCast, pow_add] at half ⊢
    rw [div_le_iff₀ (by positivity)] at below
    have scaled : (r.coefficient : ℚ) * 10 ^ digits < coefficient + 1 := by
      have wide := mul_le_mul_of_nonneg_right below (by positivity : (0 : ℚ) ≤ 10 ^ digits)
      linarith [half.1]
    have whole : r.coefficient * (tenPow digits : Nat) ≤ coefficient := by
      rw [← cast_tenPow] at scaled
      exact Int.lt_add_one_iff.mp (by exact_mod_cast scaled)
    have cast : (r.coefficient : ℚ) * 10 ^ digits ≤ coefficient := by
      rw [← cast_tenPow]
      exact_mod_cast whole
    rw [div_le_div_iff₀ (by positivity) (by positivity)]
    calc (r.coefficient : ℚ) * (10 ^ r.scale * 10 ^ digits)
        = r.coefficient * 10 ^ digits * 10 ^ r.scale := by ring
      _ ≤ coefficient * 10 ^ r.scale := by gcongr
  · -- A decimal with more digits is smaller than what is left behind a full range of them.
    have short : (r.scale : Int) ≤ maxScale := by exact_mod_cast r.scale_le
    rw [← zpow_natCast] at below ⊢
    have inRange := r.coefficient_lt
    rcases deepest with exact | deep | full
    · rwa [exact, mul_div_assoc, div_self unit.ne', mul_one]
    · omega
    · rw [zpow_add₀ (by norm_num), zpow_one] at full
      have deeper : (10 : ℚ) ^ scale * 10 ≤ 10 ^ (r.scale : Int) := by
        rw [← zpow_add_one₀ (by norm_num)]
        exact zpow_le_zpow_right₀ (by norm_num) long
      have size : |(r.coefficient : ℚ)| ≤ (coefficientBound : ℚ) - 1 := by
        have bound : r.coefficient.natAbs ≤ coefficientBound - 1 := by omega
        rw [← Int.cast_abs, Int.abs_eq_natAbs]
        have cast : (r.coefficient.natAbs : ℚ) ≤ (coefficientBound - 1 : Nat) := by
          exact_mod_cast bound
        exact cast.trans_eq (by norm_num [coefficientBound])
      rw [abs_le] at size
      rw [div_le_iff₀ (by positivity)] at below
      rw [div_le_div_iff₀ (by positivity) unit]
      norm_num [coefficientBound] at size full
      rcases le_or_gt 0 x with nonneg | negative
      · rw [abs_of_nonneg nonneg] at full
        have kept : 7922816251426433759354395033 < (coefficient : ℚ) := by linarith [half.1]
        have whole : 7922816251426433759354395034 ≤ coefficient := by
          have cast : 7922816251426433759354395033 < coefficient := by exact_mod_cast kept
          omega
        have cast : (7922816251426433759354395034 : ℚ) ≤ coefficient := by exact_mod_cast whole
        calc (r.coefficient : ℚ) * 10 ^ scale
            ≤ 79228162514264337593543950335 * 10 ^ scale := by gcongr; exact size.2
          _ ≤ coefficient * (10 ^ scale * 10) := by
            linarith [mul_le_mul_of_nonneg_right cast unit.le]
          _ ≤ coefficient * 10 ^ (r.scale : Int) := by gcongr
      · -- So far below zero there is no decimal with that many digits.
        rw [abs_of_neg negative] at full
        have wide := mul_le_mul_of_nonpos_left deeper negative.le
        exact absurd below (by linarith [size.1])

theorem faithful (nearest : Nearest coefficient scale x) :
    Faithful (coefficient / 10 ^ scale) x where
  ge := nearest.ge
  le r above := by
    have mirrored := nearest.neg.ge (-r) (by rw [toRat_neg]; linarith)
    rw [toRat_neg, Int.cast_neg, neg_div] at mirrored
    linarith

end Nearest

/-- A nearest coefficient that is even where the value lies halfway between two, if it has as many
digits as there can be. -/
structure NearestEven (coefficient scale : Int) (x : ℚ) : Prop
    extends Nearest coefficient scale x where
  even : (maxScale : Int) ≤ scale → |(coefficient : ℚ) - x * 10 ^ scale| = 1 / 2 → Even coefficient

end Stablecoin.Decimal
