import Stablecoin.Proofs.Ceilings
import Stablecoin.Proofs.Exchange
import Stablecoin.Proofs.Fees
import Stablecoin.Proofs.SwapCosts
import Stablecoin.Proofs.SwapValue

/-!
# Executing a buyback quote

The native token that a purchase was quoted to cost does not always buy what was wanted: the gross
amount, of which the fee leaves what is wanted, is truncated before it is priced. At ordinary prices
one coin may be missing for it; where the gross amount comes out even none is.
-/
namespace Stablecoin

namespace Engine

variable {e : Engine}

/-- The rate of the fee on what is bought of an asset's surplus, zero if there is none. -/
def buybackRate (e : Engine) (denom : Denom) : ℚ :=
  (((e.store.backingParams.get? denom).bind (·.buybackFee)).getD 0).toRat

section Purchase

variable {denom : Denom} {params : BackingParams} {wanted complement price value : Decimal}
  {backingOut : Coin} {total bought : Nat}

section Gross

variable (fraction : IsFraction params.buybackFee) (counted : backingOut.toDecimal = .ok wanted)
  (left : feeComplement "buyback_fee" params.buybackFee = .ok complement)
  (paid : wanted.payOutAt complement = .ok total)
include fraction counted left paid

/-- The truncated gross amount and one coin more would cover what is wanted and the fee. -/
theorem lt_grossed :
    backingOut.amount < (total + 1) * (1 - (params.buybackFee.getD 0).toRat)
      + (backingOut.amount + 1) / 10 ^ 28 := by
  obtain ⟨complementIs, positive⟩ := feeComplement_ok fraction left
  have whole := Decimal.ofAmount_toRat counted
  have gross := Decimal.lt_payOutAt (whole ▸ Nat.cast_nonneg _) positive paid
  have low := fraction.getD.1
  rw [whole, complementIs] at gross
  linarith

/-- Far from the range of decimals that holds exactly. -/
theorem lt_grossed_of_small (small : total + 1 < Decimal.coefficientBound) :
    backingOut.amount < (total + 1) * (1 - (params.buybackFee.getD 0).toRat) := by
  obtain ⟨complementIs, positive⟩ := feeComplement_ok fraction left
  have whole : wanted.toRat = backingOut.amount := Decimal.ofAmount_toRat counted
  rw [← whole, ← complementIs]
  by_contra covers
  have more : total + 1 ≤ total := by
    refine Decimal.le_payOutAt (whole ▸ Nat.cast_nonneg _) positive small ?_ paid
    push_cast
    exact not_lt.mp covers
  omega

end Gross

/-- At ordinary prices, the native token quoted for a gross amount covers and buys it. -/
theorem total_exchanged {nativePrice returned : Decimal} {nativeIn : Nat}
    (ordinary : e.Priced denom) (ordinary' : e.Priced nativeDenom)
    (priced : e.price denom = .ok price) (priced' : e.price nativeDenom = .ok nativePrice)
    (few : total < 10 ^ 15) (valued : (Coin.mk denom total).worth price = .ok value)
    (paid : value.payInAt nativePrice = .ok nativeIn)
    (worth : (Coin.mk nativeDenom nativeIn).worth nativePrice = .ok returned)
    (exchanged : returned.payOutAt price = .ok bought) :
    total * price.toRat ≤ nativeIn * nativePrice.toRat ∧ total ≤ bought := by
  obtain ⟨_, same, -, whole, unit_pos, bounded⟩ := ordinary.price
  cases priced.symm.trans same
  have size : total * e.priceMillionths denom ≤ 10 ^ 24 :=
    (Nat.mul_le_mul few.le bounded.le).trans (by norm_num)
  have inRange : total * e.priceMillionths denom < Decimal.coefficientBound := by
    simp only [Decimal.coefficientBound]
    omega
  obtain ⟨_, same, counted⟩ := Coin.worth_millionths (c := ⟨denom, total⟩) whole unit_pos inRange
  cases valued.symm.trans same
  have small : value.toRat ≤ 10 ^ 21 := by
    have cast : ((total * e.priceMillionths denom : Nat) : ℚ) ≤ 10 ^ 24 := by exact_mod_cast size
    rw [counted, Int.cast_natCast]
    linarith
  have covered : total * price.toRat ≤ value.toRat := by
    rw [counted, whole, Int.cast_natCast, Int.cast_natCast]
    push_cast
    linarith
  have bought_for :=
    le_exchanged ordinary' ordinary priced' priced small covered worth paid exchanged
  exact bought_for

end Purchase

section Bounds

variable {wanted total bought charge fee rate price other value taken : ℚ}
  (positive : 0 < price) (positive' : 0 < other) (low : 0 ≤ rate) (high : rate < 1)
  (total_nonneg : 0 ≤ total) (taken_nonneg : 0 ≤ taken)
  (gross : wanted < (total + 1) * (1 - rate) + (wanted + 1) / 10 ^ 28)
  (valued : total * price ≤ value + (1 + total * price) / 10 ^ 28)
  (covered : value ≤ taken + (value + other) / 10 ^ 28)

include positive positive' low high total_nonneg taken_nonneg gross valued covered

/-- What is bought, after the fee, falls short by no more than two coins and a half. -/
theorem wanted_lt_bought (bought_nonneg : 0 ≤ bought)
    (back : value < (bought + 1) * price + (4 + 5 * taken + 2 * other + price) / 10 ^ 28)
    (back' : bought * price ≤ value + other + (2 + 4 * value + 4 * other + price) / 10 ^ 28)
    (kept : fee ≤ bought * rate + 1 / 2 + (1 + bought * rate) / 10 ^ 28) :
    wanted * price < (bought - fee + 5 / 2) * price + (1 + taken + price + other) / 10 ^ 26 := by
  have rest := sub_nonneg.mpr high.le
  have part : bought * price * rate ≤ bought * price :=
    mul_le_of_le_one_right (by positivity) high.le
  have part' : 0 ≤ total * price * rate := by positivity
  have coin : price * (1 - rate) ≤ price := mul_le_of_le_one_right positive.le (by linarith)
  have grossed := mul_lt_mul_of_pos_right gross positive
  have charged := mul_le_mul_of_nonneg_right kept positive.le
  -- The part of a shortfall that the fee leaves is no more than all of it.
  have shortfall : total * price - bought * price
      ≤ price + (4 + 5 * taken + 2 * other + price) / 10 ^ 28 + (1 + total * price) / 10 ^ 28 := by
    linarith
  have scaled := mul_le_mul_of_nonneg_right shortfall rest
  have less := mul_le_of_le_one_right (b := 1 - rate)
    (by positivity : 0 ≤ price + (4 + 5 * taken + 2 * other + price) / 10 ^ 28
      + (1 + total * price) / 10 ^ 28) (by linarith)
  linarith

/-- The quoted native token pays for what is wanted and the quoted fee up to one coin and a half. -/
theorem wanted_add_fee_lt_paid
    (charged : charge ≤ total * rate + 1 / 2 + (1 + total * rate) / 10 ^ 28) :
    (wanted + charge) * price
      < taken + 3 / 2 * price + (1 + taken + price + other) / 10 ^ 26 := by
  have part : 0 ≤ total * price * rate := by positivity
  have part' : total * price * rate ≤ total * price :=
    mul_le_of_le_one_right (by positivity) high.le
  have coin : price * (1 - rate) ≤ price := mul_le_of_le_one_right positive.le (by linarith)
  have grossed := mul_lt_mul_of_pos_right gross positive
  have scaled := mul_le_mul_of_nonneg_right charged positive.le
  linarith

end Bounds

section Whole

variable {wanted total bought charge fee gap : Nat} {rate : ℚ} (low : 0 ≤ rate) (high : rate < 1)
  (gross : (wanted : ℚ) ≤ (total + gap) * (1 - rate))
include low high gross

/-- Below the rounding of decimals, what is bought falls short by what the truncation lost. -/
theorem wanted_le_bought (within : total ≤ bought) (few : bought < 10 ^ 15) (covered : fee ≤ bought)
    (kept : (fee : ℚ) ≤ bought * rate + 1 / 2 + (1 + bought * rate) / 10 ^ 28) :
    wanted ≤ bought - fee + gap := by
  have cast : (total : ℚ) ≤ bought := by exact_mod_cast within
  have few : (bought : ℚ) < 10 ^ 15 := by exact_mod_cast few
  have share : bought * rate ≤ bought := mul_le_of_le_one_right (Nat.cast_nonneg _) high.le
  have lost : gap * (1 - rate) ≤ gap := mul_le_of_le_one_right (Nat.cast_nonneg _) (by linarith)
  have scaled := mul_le_mul_of_nonneg_right cast (sub_nonneg.mpr high.le)
  have bound : (wanted : ℚ) < (bought - fee + gap + 1 : Nat) := by
    rw [Nat.cast_succ, Nat.cast_add, Nat.cast_sub covered]
    linarith
  exact Nat.lt_succ_iff.mp (by exact_mod_cast bound)

/-- Below the rounding of decimals, the gross amount falls short of what is wanted and its fee by
what the truncation lost. -/
theorem wanted_add_fee_le (few : total < 10 ^ 15)
    (charged : (charge : ℚ) ≤ total * rate + 1 / 2 + (1 + total * rate) / 10 ^ 28) :
    wanted + charge ≤ total + gap := by
  have few : (total : ℚ) < 10 ^ 15 := by exact_mod_cast few
  have share : total * rate ≤ total := mul_le_of_le_one_right (Nat.cast_nonneg _) high.le
  have lost : gap * (1 - rate) ≤ gap := mul_le_of_le_one_right (Nat.cast_nonneg _) (by linarith)
  have bound : ((wanted + charge : Nat) : ℚ) < (total + gap + 1 : Nat) := by
    push_cast
    linarith
  exact Nat.lt_succ_iff.mp (by exact_mod_cast bound)

/-- The two together, for what the native token taken covers. -/
theorem wanted_delivered {price taken : ℚ} (positive : 0 < price) (covers : total * price ≤ taken)
    (within : total ≤ bought) (few : bought < 10 ^ 15) (covered : fee ≤ bought)
    (kept : (fee : ℚ) ≤ bought * rate + 1 / 2 + (1 + bought * rate) / 10 ^ 28)
    (charged : (charge : ℚ) ≤ total * rate + 1 / 2 + (1 + total * rate) / 10 ^ 28) :
    wanted ≤ bought - fee + gap ∧ (wanted + charge) * price ≤ taken + gap * price := by
  refine ⟨wanted_le_bought low high gross within few covered kept, ?_⟩
  have counted := wanted_add_fee_le low high gross (within.trans_lt few) charged
  have cast : (wanted + charge : ℚ) ≤ total + gap := by exact_mod_cast counted
  have scaled := mul_le_mul_of_nonneg_right cast positive.le
  linarith

end Whole

/-- What a purchase was quoted to cost buys what was wanted up to two coins and a half, and pays for
it and the fee up to a coin and a half. At ordinary prices it is one coin, and none if the gross
amount comes out even. -/
theorem buybackCost_buybackQuote {backingOut : Coin} {c : BuybackCost} {q : BuybackQuote}
    (validated : e.store.Validated) (costed : e.buybackCost backingOut = .ok c)
    (quoted : e.buybackQuote c.nativeIn backingOut.denom = .ok q) :
    e.AtPrices backingOut.denom fun backingPrice nativePrice =>
      let wanted : ℚ := backingOut.amount
      let taken := c.nativeIn.amount * nativePrice.toRat
      let slack := roundingSlack taken backingPrice.toRat nativePrice.toRat
      (wanted * backingPrice.toRat
          < (q.backingOut.amount + 5 / 2) * backingPrice.toRat + slack ∧
        (wanted + c.buybackFee.amount) * backingPrice.toRat
          < taken + 3 / 2 * backingPrice.toRat + slack) ∧
      (e.Priced backingOut.denom → e.Priced nativeDenom →
        (∀ pool ∈ e.store.backingPools.get? backingOut.denom, pool.backing.amount < 10 ^ 15) →
        (backingOut.amount ≤ q.backingOut.amount + 1 ∧
          (wanted + c.buybackFee.amount) * backingPrice.toRat ≤ taken + backingPrice.toRat) ∧
        ∀ gross : Nat, gross * (1 - e.buybackRate backingOut.denom) = wanted →
          backingOut.amount ≤ q.backingOut.amount ∧
            (wanted + c.buybackFee.amount) * backingPrice.toRat ≤ taken) := by
  obtain ⟨params, price, nativePrice, _, wanted, complement, total, value, records, nativeIn,
    feeValue, charge, known, priced, priced', -, counted, left, grossed, valued, -, loaded, pooled,
    -, paid, shared, charged, rfl⟩ := buybackCost_ok costed
  obtain ⟨-, _, _, _, _, returned, bought, _, fee, known', same, same', -, worth, -, exchanged,
    loaded', pooled', -, kept, covered, rfl⟩ := buybackQuote_ok quoted
  -- Quote and execution look up the same records and prices.
  cases known.symm.trans known'
  cases priced.symm.trans same
  cases priced'.symm.trans same'
  cases loaded.symm.trans loaded'
  obtain ⟨stored, -⟩ := backingParams_ok known
  have fraction :=
    (BackingParams.validate_rates (validated.backingParams _ params stored)).buybackFee
  obtain ⟨reported, positive⟩ := price_ok priced
  obtain ⟨reported', positive'⟩ := price_ok priced'
  obtain ⟨low, high⟩ := fraction.getD
  have nonneg := Coin.worth_nonneg valued positive
  have near := Coin.worth_near valued
  have charge_le := Coin.charge_le low shared charged
  have kept_le := Coin.fee_le fraction.nonneg kept
  refine ⟨price, nativePrice, reported, reported', ?_, fun ordinary ordinary' shallow => ?_⟩
  · have gross := lt_grossed fraction counted left grossed
    have taken_covers := Decimal.le_payInAt nonneg positive' paid
    have back := Decimal.lt_exchanged nonneg positive' positive paid worth exchanged
    have back' := Decimal.exchanged_le nonneg positive' positive paid worth exchanged
    dsimp only [roundingSlack]
    rw [Nat.cast_sub covered]
    exact ⟨wanted_lt_bought positive positive' low high (Nat.cast_nonneg _) (by positivity) gross
        (near.ge (by positivity)) taken_covers (Nat.cast_nonneg _) back back' kept_le,
      wanted_add_fee_lt_paid positive positive' low high (Nat.cast_nonneg _) (by positivity) gross
        (near.ge (by positivity)) taken_covers charge_le⟩
  · have deep := shallow _ (backing_ok loaded).2
    have few : total < 10 ^ 15 := pooled.trans_lt deep
    have few' : bought < 10 ^ 15 := pooled'.trans_lt deep
    have rateIs : e.buybackRate backingOut.denom = (params.buybackFee.getD 0).toRat := by
      rw [buybackRate, stored, Option.bind_some]
    obtain ⟨covers, within⟩ := total_exchanged ordinary ordinary' priced priced' few valued paid
      worth exchanged
    have delivered (gap : Nat) (gross : (backingOut.amount : ℚ)
        ≤ (total + gap) * (1 - (params.buybackFee.getD 0).toRat)) :=
      wanted_delivered low high gross positive covers within few' covered kept_le charge_le
    -- What the truncation took off is less than a coin.
    have gross := lt_grossed_of_small fraction counted left grossed (by
      simp only [Decimal.coefficientBound]
      omega)
    refine ⟨by simpa using delivered 1 (by simpa using gross.le), fun even whole => ?_⟩
    -- An even gross amount is not truncated.
    rw [rateIs] at whole
    have kept : (even : ℚ) ≤ total := by
      have fewer := lt_of_mul_lt_mul_right (whole.trans_lt gross) (sub_nonneg.mpr high.le)
      exact_mod_cast Nat.lt_succ_iff.mp (by exact_mod_cast fewer)
    have scaled := mul_le_mul_of_nonneg_right kept (sub_nonneg.mpr high.le)
    simpa using delivered 0 (by simpa using whole.symm.trans_le scaled)

/-- The gross amount is truncated to 33 ether, of which the fee leaves what was wanted. -/
theorem buybackCost_buybackQuote_movedDesk :
    let trader : Principal := ⟨[1], by decide⟩
    let e := movedDesk trader (percent 50) (percent 137) (percent 3) (some (percent 10)) none
    let wanted : Coin := ⟨"ether", 30⟩
    let c : BuybackCost := ⟨⟨nativeDenom, 1507⟩, ⟨"ether", 3⟩⟩
    let q : BuybackQuote := ⟨⟨"ether", 30⟩, ⟨"ether", 3⟩⟩
    e.store.Validated ∧ e.buybackCost wanted = .ok c ∧
      e.buybackQuote c.nativeIn "ether" = .ok q ∧ wanted.amount ≤ q.backingOut.amount + 1 := by
  intro trader e wanted c q
  have healthy : e.Healthy := run_healthy rfl .initial _
  have costed : e.buybackCost wanted = .ok c := by decide +kernel
  have quoted : e.buybackQuote c.nativeIn "ether" = .ok q := by decide +kernel
  obtain ⟨_, _, -, -, -, ordinary⟩ := buybackCost_buybackQuote healthy.store.validated costed quoted
  refine ⟨healthy.store.validated, costed, quoted, ?_⟩
  exact (ordinary (by decide +kernel) (by decide +kernel) (by decide +kernel)).1.1

/-- Of five ether and a fee of a tenth the gross amount is 5.55…, and only five of it are paid for:
the five coins quoted leave four ether after the fee, and six would have been needed. -/
theorem movedDesk_pays_less :
    let trader : Principal := ⟨[1], by decide⟩
    let e := movedDesk trader (percent 50) 1 1 (some (percent 10)) none
    let ether (amount : Nat) : Coin := ⟨"ether", amount⟩
    e.store.Validated ∧ e.buybackCost (ether 5) = .ok ⟨⟨nativeDenom, 5⟩, ether 1⟩ ∧
      e.buybackQuote ⟨nativeDenom, 5⟩ "ether" = .ok ⟨ether 4, ether 1⟩ ∧
      e.buybackQuote ⟨nativeDenom, 6⟩ "ether" = .ok ⟨ether 5, ether 1⟩ := by
  intro trader e ether
  have healthy : e.Healthy := run_healthy rfl .initial _
  exact ⟨healthy.store.validated, by decide +kernel, by decide +kernel, by decide +kernel⟩

end Engine

end Stablecoin
