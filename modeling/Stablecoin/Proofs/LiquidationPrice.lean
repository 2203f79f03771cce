import Mathlib.Data.Rat.Floor
import Stablecoin.Proofs.Conversions
import Stablecoin.Proofs.DebtLimit
import Stablecoin.Proofs.Decimal.Monotone
import Stablecoin.Proofs.PlanSpec
import Stablecoin.Proofs.Surplus

/-!
# What a liquidator pays

Collateral is sold at its value without the liquidation fee, and only the commission, a part of that
fee, is kept back. So the liquidator never pays more than what is received is worth. But the price
is truncated to whole stable units, though it is an amount paid in: collateral goes for less than
its discounted value by a part of a unit, and for nothing where that value is below one unit. A sale
in parts can save as much on each of them.
-/
namespace Stablecoin

namespace Coin

/-- What a liquidator pays for collateral, in whole stable units. -/
def liquidationCost (collateral : Coin) (feeRate price : Decimal) : Result Nat := do
  let amount ← collateral.toDecimal
  let fee ← amount.mul feeRate
  (← (← amount.subTrusted fee).mul price).payOutAt pegTarget

/-- The exact value of collateral without the liquidation fee. -/
def discounted (collateral : Coin) (feeRate price : Decimal) : ℚ :=
  (1 - feeRate.toRat) * price.toRat * collateral.amount

/-- By how much the rounding of decimals can move the price of collateral. -/
def saleSlack (collateral : Coin) (price : Decimal) : ℚ :=
  (1 + 2 * price.toRat + 3 * (price.toRat * collateral.amount)) / 10 ^ 28

/-! ### What the fee leaves -/

section Fee

variable {collateral : Coin} {feeRate amount fee rest : Decimal} (low : 0 ≤ feeRate.toRat)
  (high : feeRate.toRat ≤ 1) (counted : collateral.toDecimal = .ok amount)
  (charged : amount.mul feeRate = .ok fee)
include low high counted charged

theorem liquidationFee_bounds : 0 ≤ fee.toRat ∧ fee.toRat ≤ collateral.amount := by
  have whole := Decimal.ofAmount_toRat counted
  have nonneg : 0 ≤ amount.toRat := whole ▸ Nat.cast_nonneg _
  obtain ⟨product, multiplied, within⟩ := Decimal.mul?_share nonneg low high
  cases (orOverflow_ok.mp charged).symm.trans multiplied
  exact ⟨Decimal.mul_nonneg charged nonneg low, whole ▸ within⟩

variable (left : amount.subTrusted fee = .ok rest)
include left

theorem liquidationRest_bounds : 0 ≤ rest.toRat ∧ rest.toRat ≤ collateral.amount := by
  obtain ⟨fee_nonneg, within⟩ := liquidationFee_bounds low high counted charged
  have whole := Decimal.ofAmount_toRat counted
  have faithful := Decimal.sub?_faithful (Decimal.subTrusted_ok.mp left)
  rw [whole] at faithful
  constructor
  · rw [← Decimal.toRat_zero]
    refine faithful.ge 0 ?_
    rw [Decimal.toRat_zero]
    linarith
  · exact faithful.le_natCast (by linarith)

/-- What the fee leaves is off by the rounding of the fee and of the difference. -/
theorem liquidationRest_near :
    |rest.toRat - (1 - feeRate.toRat) * collateral.amount|
      ≤ 2 * (1 + collateral.amount) / 10 ^ 28 := by
  obtain ⟨fee_nonneg, within⟩ := liquidationFee_bounds low high counted charged
  have whole := Decimal.ofAmount_toRat counted
  have product := Decimal.mul_near charged
  have difference : rest.Near (amount.toRat + (-fee).toRat) :=
    (Decimal.add?_rounded (Decimal.subTrusted_ok.mp left)).near
  rw [whole] at product difference
  rw [Decimal.toRat_neg, ← sub_eq_add_neg] at difference
  have share : (collateral.amount : ℚ) * feeRate.toRat ≤ collateral.amount :=
    mul_le_of_le_one_right (Nat.cast_nonneg _) high
  have above := product.le (by positivity)
  have below := product.ge (by positivity)
  have above' := difference.le (by linarith)
  have below' := difference.ge (by linarith)
  rw [abs_le]
  constructor <;> linarith

end Fee

/-! ### What is paid for the rest -/

section Cost

variable {collateral : Coin} {feeRate price : Decimal} {cost : Nat} (low : 0 ≤ feeRate.toRat)
  (high : feeRate.toRat ≤ 1) (positive : 0 < price.toRat)
  (priced : collateral.liquidationCost feeRate price = .ok cost)
include low high positive priced

/-- The price is less than one unit below the discounted value and not above it, up to the rounding
of decimals. -/
theorem liquidationCost_bounds :
    collateral.discounted feeRate price < cost + 1 + collateral.saleSlack price ∧
      (cost : ℚ) ≤ collateral.discounted feeRate price + collateral.saleSlack price := by
  simp only [liquidationCost, bind_ok] at priced
  obtain ⟨amount, counted, fee, charged, rest, left, value, valued, paid⟩ := priced
  obtain ⟨rest_nonneg, within⟩ := liquidationRest_bounds low high counted charged left
  have covered := Decimal.le_payOutAt_pegTarget_iff
    (Decimal.mul_nonneg valued rest_nonneg positive.le) paid
  have most : (cost : ℚ) ≤ value.toRat := (covered cost).mp le_rfl
  have least : value.toRat < cost + 1 := by
    have beyond := (covered (cost + 1)).not.mp (Nat.not_succ_le_self cost)
    push_cast at beyond
    exact not_le.mp beyond
  -- The error of what the fee leaves is scaled by the price.
  have rest_near := abs_le.mp (liquidationRest_near low high counted charged left)
  have below := mul_le_mul_of_nonneg_right rest_near.1 positive.le
  have above := mul_le_mul_of_nonneg_right rest_near.2 positive.le
  have worth : rest.toRat * price.toRat ≤ collateral.amount * price.toRat := by gcongr
  have near := Decimal.mul_near valued
  have value_over := near.le (by positivity)
  have value_under := near.ge (by positivity)
  unfold discounted saleSlack
  constructor <;> linarith

end Cost

/-! ### The exact price -/

section Exact

variable {collateral : Coin} {feeRate price : Decimal}

/-- At a fee in millionths fee and rest can be computed, and neither is rounded. -/
theorem liquidationRest_millionths {part kept : Nat} (whole : feeRate.IsMillionths part)
    (total : part + kept = 1000000)
    (small : collateral.amount * 1000000 < Decimal.coefficientBound) :
    ∃ amount fee rest, collateral.toDecimal = .ok amount ∧ amount.mul feeRate = .ok fee ∧
      amount.subTrusted fee = .ok rest ∧
      rest.IsMillionths (collateral.amount * kept : Nat) := by
  obtain ⟨amount, counted⟩ : ∃ amount, collateral.toDecimal = .ok amount :=
    ⟨_, Decimal.ofAmount_of_lt (by omega)⟩
  have counted' := Decimal.ofAmount_toRat counted
  rw [← total, Nat.mul_add] at small
  obtain ⟨fee, charged, fee_exact⟩ : ∃ fee, amount.mul feeRate = .ok fee ∧
      fee.IsMillionths (collateral.amount * part : Nat) := by
    refine Decimal.mul_millionths ?_ (by omega)
    rw [counted', whole]
    push_cast
    ring
  have high : feeRate.toRat ≤ 1 := by
    have within : (part : ℚ) ≤ 10 ^ 6 := by exact_mod_cast (by omega : part ≤ 1000000)
    rwa [whole, Int.cast_natCast, div_le_one (by positivity)]
  obtain ⟨fee_nonneg, within⟩ := liquidationFee_bounds whole.nonneg high counted charged
  obtain ⟨rest, left, -⟩ := Decimal.sub?_of_le fee_nonneg (within.trans_eq counted'.symm)
  refine ⟨amount, fee, rest, counted, charged, Decimal.subTrusted_ok.mpr left, ?_⟩
  have share : (part : ℚ) + kept = 10 ^ 6 := by exact_mod_cast total
  refine (Decimal.sub?_faithful left).eq_of_digits (by omega) (by decide) ?_
  rw [counted', fee_exact, eq_div_iff (by positivity), sub_mul, div_mul_cancel₀ _ (by positivity),
    ← share]
  push_cast
  ring

/-- At rates in millionths the price can be computed, and nothing is rounded but the price
itself. -/
theorem liquidationCost_eq_floor {part kept unit : Nat} (whole : feeRate.IsMillionths part)
    (total : part + kept = 1000000) (whole' : price.IsMillionths unit)
    (small : collateral.amount * 1000000 < Decimal.coefficientBound)
    (small' : collateral.amount * kept * unit < Decimal.coefficientBound) :
    collateral.liquidationCost feeRate price = .ok ⌊collateral.discounted feeRate price⌋₊ := by
  obtain ⟨amount, fee, rest, counted, charged, left, rest_exact⟩ :=
    liquidationRest_millionths whole total small
  obtain ⟨value, valued, value_exact⟩ := rest_exact.mul whole' small'
  have share : (kept : ℚ) = 10 ^ 6 - part := by
    rw [eq_sub_iff_add_eq']
    exact_mod_cast total
  have same : value.toRat = collateral.discounted feeRate price := by
    rw [value_exact, discounted, whole, whole']
    push_cast
    rw [share]
    ring
  have nonneg : 0 ≤ value.toRat := by
    rw [value_exact]
    positivity
  obtain ⟨cost, paid, covered⟩ := Decimal.payOutAt_pegTarget nonneg value.toRat_le_largest
  have truncated : cost = ⌊collateral.discounted feeRate price⌋₊ := by
    rw [← same]
    refine eq_of_forall_le_iff fun n => ?_
    rw [covered, Nat.le_floor_iff nonneg]
  rw [← truncated]
  simp only [liquidationCost, bind_ok]
  exact ⟨amount, counted, fee, charged, rest, left, value, valued, paid⟩

variable (low : 0 ≤ feeRate.toRat) (high : feeRate.toRat < 1) (digits : feeRate.SixDigits)
  (ordinary : price.OrdinaryPrice) (few : collateral.amount < 10 ^ 12)
include low high digits ordinary few

/-- At a fee of at most six digits and an ordinary price the price is the discounted value,
truncated. -/
theorem liquidationCost_ordinary :
    collateral.liquidationCost feeRate price = .ok ⌊collateral.discounted feeRate price⌋₊ := by
  obtain ⟨whole, part_lt⟩ :=
    digits.natCast low (high.trans_eq (by norm_num : (1 : ℚ) = (1 : Nat)))
  obtain ⟨whole', bounded⟩ := ordinary.digits.natCast ordinary.positive.le
    (ordinary.below.trans_eq (by norm_num : (1000 : ℚ) = (1000 : Nat)))
  obtain ⟨kept, total⟩ := Nat.exists_eq_add_of_le part_lt.le
  refine liquidationCost_eq_floor whole total.symm whole' ?_ ?_
  · simp only [Decimal.coefficientBound]
    omega
  · have share : kept ≤ 1000000 := by omega
    calc collateral.amount * kept * price.millionths.toNat
        ≤ 10 ^ 12 * 1000000 * (1000 * 1000000) := by gcongr
      _ < Decimal.coefficientBound := by decide

end Exact

/-! ### Sales in parts -/

section Parts

variable {denom : Denom} {feeRate price : Decimal} (share : feeRate.toRat ≤ 1)
  (positive : 0 ≤ price.toRat)
include share positive

theorem discounted_nonneg (collateral : Coin) : 0 ≤ collateral.discounted feeRate price := by
  have rest : 0 ≤ 1 - feeRate.toRat := by linarith
  unfold discounted
  positivity

/-- Two truncated values are short of the truncated sum by one unit at most. -/
theorem floor_discounted_add (n m : Nat) :
    let part (n : Nat) := ⌊discounted ⟨denom, n⟩ feeRate price⌋₊
    part n + part m ≤ part (n + m) ∧ part (n + m) ≤ part n + part m + 1 := by
  intro part
  have nonneg (n : Nat) := discounted_nonneg share positive ⟨denom, n⟩
  have sum : discounted ⟨denom, n + m⟩ feeRate price
      = discounted ⟨denom, n⟩ feeRate price + discounted ⟨denom, m⟩ feeRate price := by
    simp only [discounted, Nat.cast_add, mul_add]
  dsimp only [part]
  rw [sum]
  constructor
  · refine Nat.le_floor ?_
    push_cast
    exact add_le_add (Nat.floor_le (nonneg n)) (Nat.floor_le (nonneg m))
  · rw [← Nat.lt_succ_iff, Nat.floor_lt (add_nonneg (nonneg n) (nonneg m))]
    push_cast
    linarith [Nat.lt_floor_add_one (discounted ⟨denom, n⟩ feeRate price),
      Nat.lt_floor_add_one (discounted ⟨denom, m⟩ feeRate price)]

/-- Each part after the first loses one unit at most. -/
theorem floor_discounted_sum (amounts : List Nat) :
    let part (n : Nat) := ⌊discounted ⟨denom, n⟩ feeRate price⌋₊
    (amounts.map part).sum ≤ part amounts.sum ∧
      part amounts.sum ≤ (amounts.map part).sum + (amounts.length - 1) := by
  intro part
  -- The first part is split off what the others come to together.
  induction amounts with
  | nil => simp [part, discounted]
  | cons n rest ih =>
    cases rest with
    | nil => simp
    | cons m others =>
      have two : part n + part (m :: others).sum ≤ part (n + (m :: others).sum) ∧
          part (n + (m :: others).sum) ≤ part n + part (m :: others).sum + 1 :=
        floor_discounted_add share positive n _
      rw [List.sum_cons, List.map_cons, List.sum_cons, List.length_cons]
      rw [List.length_cons] at ih ⊢
      omega

end Parts

/-- However the collateral is split, its parts have prices, which are together no more than a cost
and less than it by no more than one unit for each part after the first. -/
def SplitsCost (collateral : Coin) (feeRate price : Decimal) (cost : Nat) : Prop :=
  ∀ amounts : List Nat, amounts.sum = collateral.amount → ∃ part : Nat → Nat,
    (∀ n ∈ amounts, liquidationCost ⟨collateral.denom, n⟩ feeRate price = .ok (part n)) ∧
      (amounts.map part).sum ≤ cost ∧ cost ≤ (amounts.map part).sum + (amounts.length - 1)

/-- At a fee of at most six digits and an ordinary price a sale in parts is never dearer than the
whole, and cheaper by no more than one unit for each part after the first. -/
theorem liquidationCost_split {collateral : Coin} {feeRate price : Decimal}
    (low : 0 ≤ feeRate.toRat) (high : feeRate.toRat < 1) (digits : feeRate.SixDigits)
    (ordinary : price.OrdinaryPrice) (few : collateral.amount < 10 ^ 12) :
    collateral.SplitsCost feeRate price ⌊collateral.discounted feeRate price⌋₊ := by
  intro amounts total
  obtain ⟨denom, amount⟩ := collateral
  obtain rfl : amounts.sum = amount := total
  refine ⟨fun n => ⌊discounted ⟨denom, n⟩ feeRate price⌋₊, fun n member => ?_,
    floor_discounted_sum high.le ordinary.positive.le amounts⟩
  exact liquidationCost_ordinary low high digits ordinary
    ((List.le_sum_of_mem member).trans_lt few)

end Coin

namespace Engine

variable {e : Engine}

/-! ### Liquidations -/

/-- A liquidation takes the price of the collateral asked for. -/
theorem afterLiquidate_cost {debtor : Principal} {collateral repayInMax : Coin}
    {parts : Liquidation} {after : PositionRecords}
    (returned : e.afterLiquidate debtor collateral repayInMax = .ok (parts, after)) :
    ∃ risk price, e.collateralParams collateral.denom = .ok risk ∧
      e.price collateral.denom = .ok price ∧ ∃ cost,
      collateral.liquidationCost risk.liquidationFee price = .ok cost ∧
      parts.repayIn = ⟨stableDenom, cost⟩ := by
  obtain ⟨-, risk, price, _, amount, fee, _, rest, value, cost, _, _, known, priced, -, -, counted,
    charged, -, left, valued, paid, -, -, -, -, rfl, -⟩ := afterLiquidate_ok returned
  refine ⟨risk, price, known, priced, cost, ?_, rfl⟩
  simp only [Coin.liquidationCost, bind_ok]
  exact ⟨amount, counted, fee, charged, rest, left, value, valued, paid⟩

/-- A liquidator pays the discounted value of the collateral asked for, truncated to whole units and
up to the rounding of decimals, which makes no difference at ordinary prices and fees. So the
payment is short of that value by less than one unit, and a sale in parts saves no more than one
unit for each part after the first. -/
theorem transact_liquidate_cost {sender : Principal} {r : LiquidateRequest} {response : Response}
    (valid : ∀ risk, e.store.collateralParams.get? r.collateral.denom = some risk →
      risk.validate = .ok ())
    (returned : (e.transact sender (.liquidate r)).result = .ok response) :
    ∃ risk price cost out commission, e.collateralParams r.collateral.denom = .ok risk ∧
      e.price r.collateral.denom = .ok price ∧
      response = .liquidate ⟨⟨stableDenom, cost⟩, out, commission⟩ ∧
      let exact := r.collateral.discounted risk.liquidationFee price
      let slack := r.collateral.saleSlack price
      exact < cost + 1 + slack ∧ (cost : ℚ) ≤ exact + slack ∧
      (risk.liquidationFee.SixDigits → price.OrdinaryPrice → r.collateral.amount < 10 ^ 12 →
        cost = ⌊exact⌋₊ ∧ r.collateral.SplitsCost risk.liquidationFee price cost) := by
  obtain ⟨plan, -, planned, -, rfl, -⟩ := transact_ok returned
  obtain ⟨parts, after, computed, -, -, -, answer⟩ := planLiquidate_ok planned
  obtain ⟨risk, price, known, priced, cost, sold, paid⟩ := afterLiquidate_cost computed
  obtain ⟨low, high⟩ :=
    (CollateralParams.validate_rates (valid risk (collateralParams_ok known).1)).liquidationFee
  obtain ⟨below, above⟩ := Coin.liquidationCost_bounds low high.le (price_ok priced).2 sold
  refine ⟨risk, price, cost, parts.collateralOut, parts.commission, known, priced, ?_, below, above,
    fun digits ordinary few => ?_⟩
  · rw [answer, paid]
  · have whole := Coin.liquidationCost_ordinary low high digits ordinary few
    cases sold.symm.trans whole
    exact ⟨rfl, Coin.liquidationCost_split low high digits ordinary few⟩

/-- A debtor with 1000 ether and a debt of 600 after ether has lost half of its value. -/
def fallenDesk (debtor liquidator : Principal) : Engine :=
  (lendingDesk debtor liquidator (etherRisk (percent 80) (percent 70) (percent 60) (percent 5)) 1
    1000).run
    [.transact debtor (.borrow ⟨none, "ether", ⟨stableDenom, 600⟩⟩), .setRate "ether" (percent 50)]

/-- At a price of 0.50 and a fee of 0.10 a liquidator pays 45 for 100 ether, and at least 43 in three
parts. -/
theorem transact_liquidate_cost_fallenDesk :
    let debtor : Principal := ⟨[1], by decide⟩
    let liquidator : Principal := ⟨[2], by decide⟩
    let risk := etherRisk (percent 80) (percent 70) (percent 60) (percent 5)
    let e := fallenDesk debtor liquidator
    let r : LiquidateRequest := ⟨none, debtor, ⟨"ether", 100⟩, ⟨stableDenom, 1000⟩⟩
    (∀ risk, e.store.collateralParams.get? "ether" = some risk → risk.validate = .ok ()) ∧
      (e.transact liquidator (.liquidate r)).result
        = .ok (.liquidate ⟨⟨stableDenom, 45⟩, ⟨"ether", 99⟩, ⟨"ether", 1⟩⟩) ∧
      45 = ⌊r.collateral.discounted risk.liquidationFee (percent 50)⌋₊ ∧
      r.collateral.SplitsCost risk.liquidationFee (percent 50) 45 := by
  intro debtor liquidator risk e r
  obtain ⟨registered, reported, returned⟩ :
      e.store.collateralParams.get? "ether" = some risk ∧ e.price "ether" = .ok (percent 50) ∧
      (e.transact liquidator (.liquidate r)).result
        = .ok (.liquidate ⟨⟨stableDenom, 45⟩, ⟨"ether", 99⟩, ⟨"ether", 1⟩⟩) := by
    decide +kernel
  have valid : ∀ risk, e.store.collateralParams.get? "ether" = some risk →
      risk.validate = .ok () := by
    intro risk' stored
    cases registered.symm.trans stored
    decide +kernel
  obtain ⟨risk', price, cost, _, _, known, priced, answer, -, -, whole⟩ :=
    transact_liquidate_cost (by exact valid) returned
  cases registered.symm.trans (collateralParams_ok known).1
  cases reported.symm.trans priced
  cases answer
  exact ⟨valid, returned, whole (by decide +kernel) (by decide +kernel) (by decide)⟩

/-- A single ether costs nothing there, though its discounted value is 0.45. Three at once cost one
unit, and one after the other nothing. -/
theorem fallenDesk_sells_for_nothing :
    let debtor : Principal := ⟨[1], by decide⟩
    let liquidator : Principal := ⟨[2], by decide⟩
    let risk := etherRisk (percent 80) (percent 70) (percent 60) (percent 5)
    let e := fallenDesk debtor liquidator
    let sale (ether : Nat) : Request :=
      .liquidate ⟨none, debtor, ⟨"ether", ether⟩, ⟨stableDenom, 1000⟩⟩
    let free := Response.liquidate ⟨⟨stableDenom, 0⟩, ⟨"ether", 1⟩, ⟨"ether", 0⟩⟩
    e.store.params.validate = .ok () ∧ e.store.collateralParams.get? "ether" = some risk ∧
      risk.validate = .ok () ∧ e.price "ether" = .ok (percent 50) ∧
      0 < Coin.discounted ⟨"ether", 1⟩ risk.liquidationFee (percent 50) ∧
      (e.transact liquidator (sale 1)).result = .ok free ∧
      (e.transact liquidator (sale 3)).result
        = .ok (.liquidate ⟨⟨stableDenom, 1⟩, ⟨"ether", 3⟩, ⟨"ether", 0⟩⟩) ∧
      let second := (e.transact liquidator (sale 1)).engine
      let third := (second.transact liquidator (sale 1)).engine
      (second.transact liquidator (sale 1)).result = .ok free ∧
        (third.transact liquidator (sale 1)).result = .ok free := by
  decide +kernel

/-- A liquidator pays no more than the collateral received is worth in whole stable units, if its
value is in range. -/
theorem afterLiquidate_repayIn_le {debtor : Principal} {collateral repayInMax : Coin}
    {parts : Liquidation} {after : PositionRecords} {price worth : Decimal}
    (params : e.store.params.validate = .ok ())
    (valid : ∀ risk, e.store.collateralParams.get? collateral.denom = some risk →
      risk.validate = .ok ())
    (returned : e.afterLiquidate debtor collateral repayInMax = .ok (parts, after))
    (priced : e.price collateral.denom = .ok price)
    (valued : parts.collateralOut.worth price = .ok worth) :
    ∃ most, worth.payOut = .ok most ∧ parts.repayIn.amount ≤ most := by
  obtain ⟨-, risk, _, _, amount, fee, commission, rest, value, cost, _, _, known, priced', -, -,
    counted, charged, taken, left, sold, paid, -, within, -, -, rfl, -⟩ :=
    afterLiquidate_ok returned
  cases priced.symm.trans priced'
  have positive := (price_ok priced).2
  obtain ⟨low, high⟩ :=
    (CollateralParams.validate_rates (valid risk (collateralParams_ok known).1)).liquidationFee
  obtain ⟨low', high'⟩ := (Params.validate_rates params).liquidationCommission
  have whole := Decimal.ofAmount_toRat counted
  obtain ⟨fee_nonneg, -⟩ := Coin.liquidationFee_bounds low high.le counted charged
  obtain ⟨rest_nonneg, -⟩ := Coin.liquidationRest_bounds low high.le counted charged left
  -- The commission is no more than the fee.
  have kept_back : (commission : ℚ) ≤ fee.toRat := by
    obtain ⟨cut, multiplied, truncated⟩ := bind_ok.mp taken
    obtain ⟨_, same, share⟩ := Decimal.mul?_share fee_nonneg low' high'.le
    cases (orOverflow_ok.mp multiplied).symm.trans same
    exact (Decimal.payOut_le truncated (Decimal.mul_nonneg multiplied fee_nonneg low')).trans share
  -- So what the fee leaves is no more than what is received, however it was rounded.
  have received : rest.toRat ≤ (collateral.amount - commission : Nat) := by
    have faithful := Decimal.sub?_faithful (Decimal.subTrusted_ok.mp left)
    rw [whole] at faithful
    refine faithful.le_natCast ?_
    rw [Nat.cast_sub within]
    linarith
  simp only [Coin.worth, Coin.toDecimal, bind_ok] at valued
  obtain ⟨out, counted', multiplied⟩ := valued
  have ordered : value.toRat ≤ worth.toRat := by
    refine Decimal.mul?_mono rest_nonneg ?_ positive.le (orOverflow_ok.mp sold)
      (orOverflow_ok.mp multiplied)
    rwa [Decimal.ofAmount_toRat counted']
  have value_nonneg := Decimal.mul_nonneg sold rest_nonneg positive.le
  obtain ⟨most, truncated⟩ := Decimal.payOut_of_nonneg (value_nonneg.trans ordered)
  refine ⟨most, truncated, ?_⟩
  rw [Decimal.le_payOut_iff _ truncated (value_nonneg.trans ordered)]
  exact ((Decimal.le_payOutAt_pegTarget_iff value_nonneg paid cost).mp le_rfl).trans ordered

/-- The 99 ether received for 45 units are worth 49. -/
theorem afterLiquidate_repayIn_le_fallenDesk :
    let debtor : Principal := ⟨[1], by decide⟩
    let liquidator : Principal := ⟨[2], by decide⟩
    let e := fallenDesk debtor liquidator
    let parts : Liquidation :=
      ⟨⟨stableDenom, 45⟩, ⟨stableDenom, 45⟩, ⟨stableDenom, 0⟩, ⟨"ether", 99⟩, ⟨"ether", 1⟩⟩
    let after : PositionRecords :=
      ⟨⟨⟨stableDenom, 555⟩, ⟨nativeDenom, 1⟩⟩,
        ⟨⟨"ether", 900⟩, ⟨stableDenom, 555⟩, ⟨nativeDenom, 1⟩⟩,
        ⟨debtor, ⟨"ether", 900⟩, ⟨stableDenom, 555⟩, ⟨nativeDenom, 1⟩, ⟨stableDenom, 0⟩, 0⟩⟩
    let worth : Decimal := { coefficient := 4950, scale := 2 }
    e.store.params.validate = .ok () ∧
      (∀ risk, e.store.collateralParams.get? "ether" = some risk → risk.validate = .ok ()) ∧
      e.afterLiquidate debtor ⟨"ether", 100⟩ ⟨stableDenom, 1000⟩ = .ok (parts, after) ∧
      e.price "ether" = .ok (percent 50) ∧
      parts.collateralOut.worth (percent 50) = .ok worth ∧
      worth.payOut = .ok 49 ∧ parts.repayIn.amount ≤ 49 := by
  intro debtor liquidator e parts after worth
  obtain ⟨params, registered, priced, returned⟩ :
      e.store.params.validate = .ok () ∧
      e.store.collateralParams.get? "ether"
        = some (etherRisk (percent 80) (percent 70) (percent 60) (percent 5)) ∧
      e.price "ether" = .ok (percent 50) ∧
      e.afterLiquidate debtor ⟨"ether", 100⟩ ⟨stableDenom, 1000⟩ = .ok (parts, after) := by
    decide +kernel
  have valid : ∀ risk, e.store.collateralParams.get? "ether" = some risk →
      risk.validate = .ok () := by
    intro risk stored
    cases registered.symm.trans stored
    decide +kernel
  have valued : parts.collateralOut.worth (percent 50) = .ok worth := by decide +kernel
  have truncated : worth.payOut = .ok 49 := by decide +kernel
  obtain ⟨most, same, within⟩ :=
    afterLiquidate_repayIn_le params (by exact valid) returned priced valued
  cases truncated.symm.trans same
  exact ⟨params, valid, returned, priced, valued, truncated, within⟩

end Engine

end Stablecoin
