import Mathlib.Data.Rat.Floor
import Stablecoin.Proofs.Decimal.Monotone
import Stablecoin.Proofs.Fees

/-!
# Fees over the whole range

Large amounts are rounded twice: the product with the rate may have more digits than a decimal
holds, and what is left of them is rounded to a whole number. Neither rounding passes a decimal that
bounds the product, and neither changes the order of two products. So a fee never exceeds the amount
and never shrinks as amount or rate grow, and while the product has room it is the nearest whole
number. Amounts that are no decimals are refused.
-/
namespace Stablecoin

namespace Decimal

/-- A larger value is not charged less. -/
theorem charge_mono {d d' : Decimal} {n m : Nat} (nonneg : 0 ≤ d.toRat) (below : d.toRat ≤ d'.toRat)
    (charged : d.charge = .ok n) (charged' : d'.charge = .ok m) : n ≤ m := by
  obtain ⟨-, most⟩ := charge_bounds nonneg charged
  obtain ⟨least, -⟩ := charge_bounds (nonneg.trans below) charged'
  have close : (n : ℚ) < m + 1 := by linarith
  exact Nat.lt_succ_iff.mp (by exact_mod_cast close)

theorem ofAmount_of_ge {n : Nat} (large : coefficientBound ≤ n) :
    ofAmount n = .error (.rejected .overflow) := by
  have none : ofInt? n = none := ofParts?_eq_none.mpr (.inl large)
  rw [ofAmount, none]
  rfl

end Decimal

namespace Coin

variable {c c' fee fee' : Coin} {rate rate' : Decimal}

/-- A fee is the charge for the product of amount and rate. -/
theorem fee_some_ok (charged : c.fee (some rate) = .ok fee) :
    ∃ amount value : Decimal, amount.toRat = c.amount ∧ amount.mul? rate = some value ∧
      value.charge = .ok fee.amount := by
  simp only [Coin.fee, bind_ok, pure_ok] at charged
  obtain ⟨amount, counted, value, multiplied, n, rounded, rfl⟩ := charged
  exact ⟨amount, value, Decimal.ofAmount_toRat counted, orOverflow_ok.mp multiplied, rounded⟩

theorem fee_of_ge (large : Decimal.coefficientBound ≤ c.amount) :
    c.fee (some rate) = .error (.rejected .overflow) := by
  rw [Coin.fee, toDecimal, Decimal.ofAmount_of_ge large]
  rfl

theorem amount_lt_of_fee (charged : c.fee (some rate) = .ok fee) :
    c.amount < Decimal.coefficientBound := by
  by_contra large
  rw [fee_of_ge (Nat.le_of_not_lt large)] at charged
  cases charged

/-- A fee at a rate below one is no more than the amount. -/
theorem fee_le_amount (fraction : IsFraction (some rate)) (charged : c.fee (some rate) = .ok fee) :
    fee.amount ≤ c.amount := by
  obtain ⟨other, same, within⟩ := fee_of_fraction fraction (amount_lt_of_fee charged)
  cases charged.symm.trans same
  exact within

/-- Neither a larger amount nor a higher rate makes a fee smaller. -/
theorem fee_le_fee (nonneg : 0 ≤ rate.toRat) (amounts : c.amount ≤ c'.amount)
    (rates : rate.toRat ≤ rate'.toRat) (charged : c.fee (some rate) = .ok fee)
    (charged' : c'.fee (some rate') = .ok fee') : fee.amount ≤ fee'.amount := by
  obtain ⟨amount, value, whole, multiplied, rounded⟩ := fee_some_ok charged
  obtain ⟨amount', value', whole', multiplied', rounded'⟩ := fee_some_ok charged'
  have left : 0 ≤ amount.toRat := whole ▸ Nat.cast_nonneg _
  have left' : 0 ≤ amount'.toRat := whole' ▸ Nat.cast_nonneg _
  have below : amount.toRat ≤ amount'.toRat := by
    rw [whole, whole']
    exact_mod_cast amounts
  have products : amount.toRat * rate.toRat ≤ amount'.toRat * rate'.toRat :=
    mul_le_mul below rates nonneg left'
  exact Decimal.charge_mono (Decimal.mul?_nonneg multiplied left nonneg)
    (Decimal.mul?_le left nonneg left' (nonneg.trans rates) products multiplied multiplied')
    rounded rounded'

section Room

variable (nonneg : 0 ≤ rate.toRat) (charged : c.fee (some rate) = .ok fee)
  (room : c.amount * rate.coefficient.natAbs < Decimal.coefficientBound)
include nonneg charged room

/-- While the product has room for its digits, only the fee itself is rounded. -/
theorem fee_bounds : c.amount * rate.toRat - 1 / 2 < fee.amount ∧
    (fee.amount : ℚ) ≤ c.amount * rate.toRat + 1 / 2 := by
  have magnitude : (rate.coefficient.natAbs : ℚ) = rate.coefficient := by
    rw [← Int.cast_natCast, Int.natAbs_of_nonneg (Decimal.coefficient_nonneg nonneg)]
  have same : c.amount * ((some rate).getD 0).toRat
      = (⟨(c.amount * rate.coefficient.natAbs : Nat), rate.scale, room, rate.scale_le⟩ :
          Decimal).toRat := by
    rw [Option.getD_some, Decimal.toRat_eq, Decimal.toRat_eq, Int.cast_natCast, Nat.cast_mul,
      magnitude, mul_div_assoc]
  have bounds := fee_exact (fun r member => Option.some.inj member ▸ nonneg) charged same
  rwa [Option.getD_some] at bounds

theorem fee_eq_floor : fee.amount = ⌊c.amount * rate.toRat + 1 / 2⌋₊ := by
  obtain ⟨low, high⟩ := fee_bounds nonneg charged room
  symm
  rw [Nat.floor_eq_iff (by positivity)]
  exact ⟨high, by linarith⟩

end Room

/-- At a rate from zero to below one the fee on an amount exists if the amount is a decimal, and is
refused otherwise. It is at most the amount, it does not decrease as amount or rate grow, and it is
the nearest whole number to the exact product, a half going up, while that has room. -/
theorem fee_wholeRange (c : Coin) (rate : Decimal) (nonneg : 0 ≤ rate.toRat)
    (below : rate.toRat < 1) :
    (∀ fee, c.fee (some rate) = .ok fee →
      fee.amount ≤ c.amount ∧
      (∀ (c' : Coin) (rate' : Decimal) (fee' : Coin), c.amount ≤ c'.amount →
        rate.toRat ≤ rate'.toRat → c'.fee (some rate') = .ok fee' → fee.amount ≤ fee'.amount) ∧
      (c.amount * rate.coefficient.natAbs < Decimal.coefficientBound →
        |(fee.amount : ℚ) - c.amount * rate.toRat| ≤ 1 / 2 ∧
          fee.amount = ⌊c.amount * rate.toRat + 1 / 2⌋₊)) ∧
    (c.amount < Decimal.coefficientBound → ∃ fee, c.fee (some rate) = .ok fee) ∧
    (Decimal.coefficientBound ≤ c.amount → c.fee (some rate) = .error (.rejected .overflow)) := by
  have fraction : IsFraction (some rate) := fun r member =>
    Option.some.inj member ▸ ⟨nonneg, below⟩
  refine ⟨fun fee charged => ⟨fee_le_amount fraction charged, ?_, fun room => ⟨?_, ?_⟩⟩, ?_,
    fun large => fee_of_ge large⟩
  · intro c' rate' fee' amounts rates charged'
    exact fee_le_fee nonneg amounts rates charged charged'
  · obtain ⟨low, high⟩ := fee_bounds nonneg charged room
    rw [abs_le]
    constructor <;> linarith
  · exact fee_eq_floor nonneg charged room
  · intro small
    obtain ⟨fee, charged, -⟩ := fee_of_fraction fraction small
    exact ⟨fee, charged⟩

/-- The fee of three thousandths on 500 is one and a half, which is charged as two. -/
theorem fee_wholeRange_half :
    0 ≤ (Decimal.ofSmall 3 3).toRat ∧ (Decimal.ofSmall 3 3).toRat < 1 ∧
      (⟨"uusw", 500⟩ : Coin).fee (some (.ofSmall 3 3)) = .ok ⟨"uusw", 2⟩ ∧
      500 * (Decimal.ofSmall 3 3).coefficient.natAbs < Decimal.coefficientBound ∧ 2 ≤ 500 ∧
      2 = ⌊500 * (Decimal.ofSmall 3 3).toRat + 1 / 2⌋₊ := by
  have nonneg : 0 ≤ (Decimal.ofSmall 3 3).toRat := by decide
  have below : (Decimal.ofSmall 3 3).toRat < 1 := by decide
  have charged : (⟨"uusw", 500⟩ : Coin).fee (some (.ofSmall 3 3)) = .ok ⟨"uusw", 2⟩ := by decide
  have room : 500 * (Decimal.ofSmall 3 3).coefficient.natAbs < Decimal.coefficientBound := by decide
  obtain ⟨within, -, nearest⟩ :=
    (fee_wholeRange ⟨"uusw", 500⟩ (.ofSmall 3 3) nonneg below).1 _ charged
  exact ⟨nonneg, below, charged, room, within, (nearest room).2⟩

end Coin

end Stablecoin
