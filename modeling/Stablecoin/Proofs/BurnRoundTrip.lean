import Stablecoin.Proofs.Ceilings
import Stablecoin.Proofs.Fees
import Stablecoin.Proofs.Healthy
import Stablecoin.Proofs.MixLegs
import Stablecoin.Proofs.SwapCosts

/-!
# Executing a burn quote

Burning what a payout was quoted to cost pays that payout up to one coin and half a unit's worth on
each leg: the fee on the burn is rounded to the nearest unit, and the payout truncated. Without a
fee, at ordinary prices, nothing is lost. The quote looks only at what the module account holds, so
the burn itself may be refused for what the pool's record says.
-/
namespace Stablecoin

namespace Mix

/-- The share of a value that a mix takes in backing. The rest is native token. -/
def backingShare : Mix → ℚ
  | fullBacking => 1
  | algorithmic => 0
  | fractional ratio => ratio.toRat

variable {ratio : Decimal}

theorem backingShare_of (nonneg : 0 ≤ ratio.toRat) :
    (Mix.of ratio false).backingShare = min 1 ratio.toRat := by
  cases mixed : Mix.of ratio false with
  | fullBacking => exact (min_eq_left (of_eq_fullBacking mixed)).symm
  | algorithmic =>
    rw [le_antisymm (of_eq_algorithmic mixed) nonneg, min_eq_right zero_le_one]
    rfl
  | fractional share =>
    obtain rfl := of_eq_fractional mixed
    exact (min_eq_right (Engine.mix_fractional mixed).2.le).symm

theorem backingShare_bounds (ratio : Decimal) (forced : Bool) :
    0 ≤ (Mix.of ratio forced).backingShare ∧ (Mix.of ratio forced).backingShare ≤ 1 := by
  cases mixed : Mix.of ratio forced with
  | fullBacking => exact ⟨zero_le_one, le_rfl⟩
  | algorithmic => exact ⟨le_rfl, zero_le_one⟩
  | fractional share =>
    obtain ⟨above, below⟩ := Engine.mix_fractional mixed
    exact ⟨above.le, below.le⟩

end Mix

namespace Engine

variable {e : Engine}

/-- One cap sets the value of a fractional burn and is paid whole, and the other leg is paid its
share of the value. -/
theorem fractionalBurn_ok {ratio backingPrice nativePrice : Decimal} {backingMax nativeMax : Coin}
    {backingMaxValue nativeMaxValue value : Decimal} {backingOut nativeOut : Nat}
    (legs : fractionalBurn ratio backingPrice nativePrice backingMax nativeMax backingMaxValue
      nativeMaxValue = .ok (value, backingOut, nativeOut)) :
    ∃ rest, Decimal.subTrusted 1 ratio = .ok rest ∧
      (backingMaxValue.div ratio = .ok value ∧ backingOut = backingMax.amount ∧
          (∃ part, value.mul rest = .ok part ∧ part.payOutAt nativePrice = .ok nativeOut) ∨
        nativeMaxValue.div rest = .ok value ∧ nativeOut = nativeMax.amount ∧
          ∃ part, value.mul ratio = .ok part ∧ part.payOutAt backingPrice = .ok backingOut) := by
  simp only [fractionalBurn, bind_ok] at legs
  obtain ⟨byBacking, backed, rest, left, byNative, limited, legs⟩ := legs
  refine ⟨rest, left, ?_⟩
  split at legs
  next =>
    simp only [bind_ok, left, Except.ok.injEq, pure_ok, Prod.mk.injEq] at legs
    obtain ⟨_, rfl, part, multiplied, amount, paid, rfl, rfl, rfl⟩ := legs
    exact .inl ⟨backed, rfl, part, multiplied, paid⟩
  next =>
    simp only [bind_ok, pure_ok, Prod.mk.injEq] at legs
    obtain ⟨part, multiplied, amount, paid, rfl, rfl, rfl⟩ := legs
    exact .inr ⟨limited, rfl, part, multiplied, paid⟩

/-! ### Legs of a burn, up to rounding -/

/-- What the rounding of decimals may add to a leg. -/
def legSlack (part price : ℚ) : ℚ := (3 + 3 * part + price) / 10 ^ 28

section Leg

variable {value share price product : Decimal} {amount : Nat} (nonneg : 0 ≤ value.toRat)
  (low : 0 ≤ share.toRat) (positive : 0 < price.toRat)
include positive

theorem bindingLeg_le {cap : Coin} {capValue : Decimal} (above : 0 < share.toRat)
    (below : share.toRat ≤ 1) (valued : cap.worth price = .ok capValue)
    (divided : capValue.div share = .ok value) :
    cap.amount * price.toRat
      ≤ value.toRat * share.toRat + legSlack (value.toRat * share.toRat) price.toRat := by
  have near := (Coin.worth_near valued).ge (by positivity)
  have nonneg := Coin.worth_nonneg valued positive
  have quotient := Decimal.le_div_mul nonneg above divided
  have part := mul_nonneg (Decimal.div_nonneg divided nonneg above.le) above.le
  unfold legSlack
  linarith

include nonneg low

theorem paidLeg_le (multiplied : value.mul share = .ok product)
    (paid : product.payOutAt price = .ok amount) :
    amount * price.toRat
      ≤ value.toRat * share.toRat + legSlack (value.toRat * share.toRat) price.toRat := by
  have part := mul_nonneg nonneg low
  have near := (Decimal.mul_near multiplied).le part
  have leg := Decimal.payOutAt_le (Decimal.mul_nonneg multiplied nonneg low) positive paid
  unfold legSlack
  linarith

theorem lt_paidLeg (multiplied : value.mul share = .ok product)
    (paid : product.payOutAt price = .ok amount) :
    value.toRat * share.toRat
      < (amount + 1) * price.toRat + legSlack (value.toRat * share.toRat) price.toRat := by
  have part := mul_nonneg nonneg low
  have near := Decimal.mul_near multiplied
  have high := near.le part
  have low := near.ge part
  have leg := Decimal.lt_payOutAt (Decimal.mul_nonneg multiplied nonneg ‹_›) positive paid
  unfold legSlack
  linarith

end Leg

section Mix

variable {ratio backingPrice nativePrice value : Decimal} (positive : 0 < backingPrice.toRat)
  (positive' : 0 < nativePrice.toRat)
include positive positive'

/-- The amounts quoted for a burn are worth no more than their shares of its value. -/
theorem burnWithin_le {backingMax nativeMax : Coin} {backingMaxValue nativeMaxValue : Decimal}
    {backingOut nativeOut : Nat} (valued : backingMax.worth backingPrice = .ok backingMaxValue)
    (valued' : nativeMax.worth nativePrice = .ok nativeMaxValue)
    (legs : burnWithin (.of ratio false) backingPrice nativePrice backingMax nativeMax
      backingMaxValue nativeMaxValue = .ok (value, backingOut, nativeOut)) :
    let share := (Mix.of ratio false).backingShare
    0 ≤ value.toRat ∧
      backingOut * backingPrice.toRat
        ≤ value.toRat * share + legSlack (value.toRat * share) backingPrice.toRat ∧
      nativeOut * nativePrice.toRat
        ≤ value.toRat * (1 - share) + legSlack (value.toRat * (1 - share)) nativePrice.toRat := by
  cases mixed : Mix.of ratio false with
  | fullBacking =>
    rw [mixed] at legs
    simp only [burnWithin, pure_ok, Prod.mk.injEq] at legs
    obtain ⟨rfl, rfl, rfl⟩ := legs
    have nonneg := Coin.worth_nonneg valued positive
    have near := (Coin.worth_near valued).ge (by positivity)
    simp only [Mix.backingShare, legSlack, mul_one, sub_self, mul_zero, Nat.cast_zero, zero_mul]
    exact ⟨nonneg, by linarith, by positivity⟩
  | algorithmic =>
    rw [mixed] at legs
    simp only [burnWithin, pure_ok, Prod.mk.injEq] at legs
    obtain ⟨rfl, rfl, rfl⟩ := legs
    have nonneg := Coin.worth_nonneg valued' positive'
    have near := (Coin.worth_near valued').ge (by positivity)
    simp only [Mix.backingShare, legSlack, mul_one, sub_zero, mul_zero, Nat.cast_zero, zero_mul]
    exact ⟨nonneg, by positivity, by linarith⟩
  | fractional share =>
    rw [mixed] at legs
    obtain ⟨above, below⟩ := mix_fractional mixed
    obtain ⟨rest, left, legs⟩ := fractionalBurn_ok legs
    have restIs := Decimal.one_sub?_toRat above.le below.le (Decimal.subTrusted_ok.mp left)
    have above' : 0 < rest.toRat := by linarith
    have below' : rest.toRat ≤ 1 := by linarith
    simp only [Mix.backingShare, ← restIs]
    rcases legs with ⟨backed, rfl, part, multiplied, paid⟩ | ⟨limited, rfl, part, multiplied, paid⟩
    · have nonneg := Decimal.div_nonneg backed (Coin.worth_nonneg valued positive) above.le
      exact ⟨nonneg, bindingLeg_le positive above below.le valued backed,
        paidLeg_le nonneg above'.le positive' multiplied paid⟩
    · have nonneg := Decimal.div_nonneg limited (Coin.worth_nonneg valued' positive') above'.le
      exact ⟨nonneg, paidLeg_le nonneg above.le positive multiplied paid,
        bindingLeg_le positive' above' below' valued' limited⟩

/-- One coin more on each leg would be worth more than its share of the value burned. -/
theorem lt_burnOut {backingOut nativeOut : Nat} (nonneg : 0 ≤ value.toRat)
    (legs : burnOut (.of ratio false) backingPrice nativePrice value
      = .ok (backingOut, nativeOut)) :
    let share := (Mix.of ratio false).backingShare
    value.toRat * share < (backingOut + 1) * backingPrice.toRat
        + legSlack (value.toRat * share) backingPrice.toRat ∧
      value.toRat * (1 - share) < (nativeOut + 1) * nativePrice.toRat
        + legSlack (value.toRat * (1 - share)) nativePrice.toRat := by
  cases mixed : Mix.of ratio false with
  | fullBacking =>
    rw [mixed] at legs
    simp only [burnOut, bind_ok, pure_ok, Prod.mk.injEq] at legs
    obtain ⟨amount, paid, rfl, rfl⟩ := legs
    have leg := Decimal.lt_payOutAt nonneg positive paid
    simp only [Mix.backingShare, legSlack, mul_one, sub_self, mul_zero, Nat.cast_zero, zero_add,
      one_mul]
    exact ⟨by linarith, by positivity⟩
  | algorithmic =>
    rw [mixed] at legs
    simp only [burnOut, bind_ok, pure_ok, Prod.mk.injEq] at legs
    obtain ⟨amount, paid, rfl, rfl⟩ := legs
    have leg := Decimal.lt_payOutAt nonneg positive' paid
    simp only [Mix.backingShare, legSlack, mul_one, sub_zero, mul_zero, Nat.cast_zero, zero_add,
      one_mul]
    exact ⟨by positivity, by linarith⟩
  | fractional share =>
    rw [mixed] at legs
    obtain ⟨above, below⟩ := mix_fractional mixed
    simp only [burnOut, bind_ok, Decimal.subTrusted_ok, pure_ok, Prod.mk.injEq] at legs
    obtain ⟨product, multiplied, amount, paid, rest, left, product', multiplied', amount', paid',
      rfl, rfl⟩ := legs
    have restIs := Decimal.one_sub?_toRat above.le below.le left
    simp only [Mix.backingShare, ← restIs]
    exact ⟨lt_paidLeg nonneg above.le positive multiplied paid,
      lt_paidLeg nonneg (by linarith) positive' multiplied' paid'⟩

end Mix

/-! ### Legs of a burn at ordinary prices -/

section Covers

variable {value net : Decimal} {units amount : Nat} (whole : net.toRat = units)
  (least : ∀ n : Nat, units ≤ n ↔ value.toRat ≤ n)
include whole least

/-- Units that cover the value of a cap pay the cap. -/
theorem wholeLeg_covers {cap : Coin} {price : Decimal} {unit : Nat}
    (priceIs : price.IsMillionths unit) (positive : 0 < unit) (bounded : unit < 1000000000)
    (small : cap.amount < 10 ^ 12) (valued : cap.worth price = .ok value)
    (paid : net.payOutAt price = .ok amount) : cap.amount ≤ amount := by
  have worth : cap.amount * unit ≤ 10 ^ 12 * 1000000000 := Nat.mul_le_mul small.le bounded.le
  have inRange : cap.amount * unit < Decimal.coefficientBound := by
    simp only [Decimal.coefficientBound]
    omega
  obtain ⟨_, same, counted⟩ := Coin.worth_millionths priceIs positive inRange
  cases valued.symm.trans same
  have covers : cap.amount * unit ≤ units * 1000000 := by
    have above := (least units).mp le_rfl
    rw [counted, Int.cast_natCast, div_le_iff₀ (by positivity)] at above
    exact_mod_cast above
  have few : units ≤ 10 ^ 21 := by
    have above : ((cap.amount * unit : Nat) : ℚ) ≤ 10 ^ 21 := by exact_mod_cast worth
    rw [least, counted, Int.cast_natCast]
    push_cast at above ⊢
    linarith
  have netIs : net.IsMillionths (units * 1000000 : Nat) := by
    rw [Decimal.IsMillionths, whole]
    push_cast
    ring
  obtain ⟨_, same, most⟩ := Decimal.payOutAt_millionths priceIs positive (by omega) netIs
  cases paid.symm.trans same
  exact (most _).mpr covers

variable {share price product : Decimal} {part unit : Nat} (leg : Leg share price part unit)
  (multiplied : net.mul share = .ok product) (paid : product.payOutAt price = .ok amount)
include leg multiplied paid

/-- Units that cover what a cap allows pay the cap. -/
theorem bindingLeg_covers {cap : Coin} {capValue : Decimal} (small : cap.amount < 10 ^ 12)
    (valued : cap.worth price = .ok capValue) (divided : capValue.div share = .ok value) :
    cap.amount ≤ amount ∧ units ≤ 10 ^ 21 := by
  have worth : cap.amount * unit ≤ 10 ^ 21 :=
    (Nat.mul_le_mul small.le leg.unit_lt.le).trans (by norm_num)
  obtain ⟨_, _, same, same', -, bounded, -, above⟩ := leg.limit worth
  cases valued.symm.trans same
  cases divided.symm.trans same'
  have few : units ≤ 10 ^ 21 := (least _).mpr (bounded.trans_eq (by norm_num))
  obtain ⟨_, _, same, same', most⟩ := leg.payOut whole few
  cases multiplied.symm.trans same
  cases paid.symm.trans same'
  exact ⟨(most _).mpr ((above _).mp ((least _).mp le_rfl)), few⟩

/-- Units that cover a value pay what the leg's share of the value pays. -/
theorem paidLeg_covers {product' : Decimal} {amount' : Nat} (few : units ≤ 10 ^ 21)
    (nonneg : 0 ≤ value.toRat) (multiplied' : value.mul share = .ok product')
    (paid' : product'.payOutAt price = .ok amount') : amount' ≤ amount := by
  obtain ⟨_, _, same, same', most⟩ := leg.payOut whole few
  cases multiplied.symm.trans same
  cases paid.symm.trans same'
  exact (most _).mpr
    (leg.paid_mul_le nonneg ((least _).mp le_rfl) few multiplied' paid')

end Covers

/-- At ordinary prices units that cover the value of a burn are paid at least what the value is. -/
theorem burnOut_covers {denom : Denom} (digits : e.store.params.backingRatio.SixDigits)
    (priced : e.Priced denom) (nativePriced : e.Priced nativeDenom)
    {backingPrice nativePrice backingMaxValue nativeMaxValue value net : Decimal}
    {backingMax nativeMax : Coin} {backingOut nativeOut units backingPaid nativePaid : Nat}
    (known : e.price denom = .ok backingPrice) (known' : e.price nativeDenom = .ok nativePrice)
    (valued : backingMax.worth backingPrice = .ok backingMaxValue)
    (valued' : nativeMax.worth nativePrice = .ok nativeMaxValue)
    (quoted : burnWithin (.of e.store.params.backingRatio false) backingPrice nativePrice backingMax
      nativeMax backingMaxValue nativeMaxValue = .ok (value, backingOut, nativeOut))
    (small : backingOut < 10 ^ 12) (small' : nativeOut < 10 ^ 12) (whole : net.toRat = units)
    (least : ∀ n : Nat, units ≤ n ↔ value.toRat ≤ n)
    (paid : burnOut (.of e.store.params.backingRatio false) backingPrice nativePrice net
      = .ok (backingPaid, nativePaid)) :
    backingOut ≤ backingPaid ∧ nativeOut ≤ nativePaid := by
  obtain ⟨_, same, -, counted, unit_pos, unit_lt⟩ := priced.price
  cases known.symm.trans same
  obtain ⟨_, same, -, counted', unit_pos', unit_lt'⟩ := nativePriced.price
  cases known'.symm.trans same
  cases mixed : Mix.of e.store.params.backingRatio false with
  | fullBacking =>
    rw [mixed] at quoted paid
    simp only [burnWithin, burnOut, bind_ok, pure_ok, Prod.mk.injEq] at quoted paid
    obtain ⟨rfl, rfl, rfl⟩ := quoted
    obtain ⟨amount, paid, rfl, rfl⟩ := paid
    exact ⟨wholeLeg_covers whole least counted unit_pos unit_lt small valued paid, le_rfl⟩
  | algorithmic =>
    rw [mixed] at quoted paid
    simp only [burnWithin, burnOut, bind_ok, pure_ok, Prod.mk.injEq] at quoted paid
    obtain ⟨rfl, rfl, rfl⟩ := quoted
    obtain ⟨amount, paid, rfl, rfl⟩ := paid
    exact ⟨le_rfl, wholeLeg_covers whole least counted' unit_pos' unit_lt' small' valued' paid⟩
  | fractional share =>
    obtain ⟨above, below⟩ := mix_fractional mixed
    obtain rfl := Mix.of_eq_fractional mixed
    rw [mixed] at quoted paid
    obtain ⟨rest, _, _, same, same', left, leg, leg'⟩ :=
      fractionalLegs digits above below priced nativePriced
    cases known.symm.trans same
    cases known'.symm.trans same'
    simp only [burnOut, left, bind_ok, Except.ok.injEq, pure_ok, Prod.mk.injEq] at paid
    obtain ⟨product, multiplied, amount, out, _, rfl, product', multiplied', amount', out', rfl,
      rfl⟩ := paid
    obtain ⟨_, same, legs⟩ := fractionalBurn_ok quoted
    cases left.symm.trans same
    rcases legs with ⟨backed, rfl, part, shared, owed⟩ | ⟨limited, rfl, part, shared, owed⟩
    · obtain ⟨covers, few⟩ :=
        bindingLeg_covers whole least leg multiplied out small valued backed
      have nonneg := Decimal.div_nonneg backed (Coin.worth_nonneg valued leg.price_pos) above.le
      exact ⟨covers, paidLeg_covers whole least leg' multiplied' out' few nonneg shared owed⟩
    · obtain ⟨covers, few⟩ :=
        bindingLeg_covers whole least leg' multiplied' out' small' valued' limited
      have nonneg := Decimal.div_nonneg limited (Coin.worth_nonneg valued' leg'.price_pos)
        leg'.share_pos.le
      exact ⟨paidLeg_covers whole least leg multiplied out few nonneg shared owed, covers⟩

/-! ### Executing the quote -/

/-- A payout fails only if the value is out of range at one of the prices. -/
theorem burnOut_error {ratio backingPrice nativePrice value : Decimal} {failure : Failure}
    (positive : 0 < backingPrice.toRat) (positive' : 0 < nativePrice.toRat)
    (nonneg : 0 ≤ value.toRat)
    (failed : burnOut (.of ratio false) backingPrice nativePrice value = .error failure) :
    failure = .rejected .overflow ∧
      (Decimal.largest.toRat * backingPrice.toRat < value.toRat ∨
        Decimal.largest.toRat * nativePrice.toRat < value.toRat) := by
  cases mixed : Mix.of ratio false with
  | fullBacking =>
    rw [mixed] at failed
    rcases bind_error.mp failed with failed | ⟨_, _, returned⟩
    · exact (Decimal.payOutAt_error nonneg positive failed).imp_right .inl
    · cases returned
  | algorithmic =>
    rw [mixed] at failed
    rcases bind_error.mp failed with failed | ⟨_, _, returned⟩
    · exact (Decimal.payOutAt_error nonneg positive' failed).imp_right .inr
    · cases returned
  | fractional share =>
    obtain ⟨above, below⟩ := mix_fractional mixed
    obtain ⟨rest, left, rest_nonneg⟩ :=
      Decimal.sub?_of_le above.le (below.le.trans_eq Decimal.toRat_one.symm)
    have restIs := Decimal.one_sub?_toRat above.le below.le left
    -- Shares of the value are in range, and no more than the value.
    obtain ⟨part, shared, part_le⟩ := Decimal.mul?_share nonneg above.le below.le
    obtain ⟨part', shared', part_le'⟩ := Decimal.mul?_share nonneg rest_nonneg (by linarith)
    rw [mixed] at failed
    simp only [burnOut, Decimal.mul, shared, shared', orOverflow, Decimal.subTrusted_ok.mpr left,
      pure_bind, ok_bind] at failed
    rcases bind_error.mp failed with failed | ⟨_, _, failed⟩
    · have product_nonneg := Decimal.mul?_nonneg shared nonneg above.le
      obtain ⟨overflow, beyond⟩ := Decimal.payOutAt_error product_nonneg positive failed
      exact ⟨overflow, .inl (beyond.trans_le part_le)⟩
    · rcases bind_error.mp failed with failed | ⟨_, _, returned⟩
      · have product_nonneg := Decimal.mul?_nonneg shared' nonneg rest_nonneg
        obtain ⟨overflow, beyond⟩ := Decimal.payOutAt_error product_nonneg positive' failed
        exact ⟨overflow, .inr (beyond.trans_le part_le')⟩
      · cases returned

section Gross

variable {value units complement gross : Decimal} {rate : Option Decimal} {burnIn : Nat}
  {fee : Coin}
  (fraction : IsFraction rate) (left : feeComplement "burn_fee" rate = .ok complement)
  (converted : value.div pegTarget = .ok units)
  (grossed : units.div complement = .ok gross) (paid : gross.payIn = .ok burnIn)
include fraction left converted grossed paid

/-- What the fee leaves of a burn covers the value up to the half unit by which the fee is
rounded. -/
theorem gross_covers (nonneg : 0 ≤ value.toRat)
    (charged : (Coin.mk stableDenom burnIn).fee rate = .ok fee) :
    value.toRat ≤ (burnIn - fee.amount) + 1 / 2 + (2 + value.toRat + burnIn) / 10 ^ 28 := by
  obtain ⟨complementIs, positive⟩ := feeComplement_ok fraction left
  obtain ⟨low, high⟩ := fraction.getD
  have same : units.toRat = value.toRat := Decimal.div?_one_toRat (orOverflow_ok.mp converted)
  have quotient := Decimal.le_div_mul (same ▸ nonneg) positive grossed
  have scaled := mul_le_mul_of_nonneg_right (Decimal.le_payIn paid) positive.le
  have charge := Coin.fee_le fraction.nonneg charged
  have share : burnIn * (rate.getD 0).toRat ≤ burnIn :=
    mul_le_of_le_one_right (Nat.cast_nonneg _) high.le
  rw [same, complementIs] at quotient
  rw [complementIs] at scaled
  dsimp only at charge
  linarith

/-- Without a fee a burn takes the least number of units that covers the value. -/
theorem gross_le_iff (free : ∀ r ∈ rate, r.toRat = 0) (n : Nat) :
    burnIn ≤ n ↔ value.toRat ≤ n := by
  obtain ⟨complementIs, -⟩ := feeComplement_ok fraction left
  have none : (rate.getD 0).toRat = 0 := by
    cases rate with
    | none => exact Decimal.toRat_zero
    | some rate => exact free rate rfl
  have same : units.toRat = value.toRat := Decimal.div?_one_toRat (orOverflow_ok.mp converted)
  have faithful := Decimal.div?_faithful (orOverflow_ok.mp grossed)
  rw [complementIs, none, sub_zero, div_one] at faithful
  rw [Decimal.payIn_le_iff n paid, faithful.eq_toRat, same]

end Gross

/-- A burn pays out the units that the fee leaves of it, if the backing is there. -/
theorem burnQuote_eq {params : BackingParams} {backingPrice nativePrice : Decimal} {denom : Denom}
    {burnIn : Nat} (fraction : IsFraction params.burnFee)
    (small : burnIn < Decimal.coefficientBound) (peg : e.requireBurnPrice = .ok ())
    (known : e.backingParams denom = .ok params) (priced : e.price denom = .ok backingPrice)
    (priced' : e.price nativeDenom = .ok nativePrice) :
    ∃ (fee : Coin) (net : Decimal), (Coin.mk stableDenom burnIn).fee params.burnFee = .ok fee ∧
      fee.amount ≤ burnIn ∧ net.toRat = (burnIn - fee.amount : Nat) ∧
      e.burnQuote ⟨stableDenom, burnIn⟩ denom = (do
        let out ← burnOut (.of e.store.params.backingRatio false) backingPrice nativePrice net
        e.requireBackingHeld (← e.backing denom).pool denom out.1
        pure ⟨⟨denom, out.1⟩, ⟨nativeDenom, out.2⟩, fee⟩) := by
  obtain ⟨fee, charged, covered⟩ :=
    Coin.fee_of_fraction (c := ⟨stableDenom, burnIn⟩) fraction small
  have left : (Coin.mk stableDenom burnIn).sub fee.amount
      = .ok ⟨stableDenom, burnIn - fee.amount⟩ := Coin.sub_ok.mpr ⟨covered, rfl⟩
  have counted := Decimal.ofAmount_of_lt ((Nat.sub_le burnIn fee.amount).trans_lt small)
  have worth := (Coin.worth_pegTarget ⟨stableDenom, burnIn - fee.amount⟩).trans counted
  refine ⟨fee, _, charged, covered, Decimal.ofAmount_toRat counted, ?_⟩
  simp only [burnQuote, Coin.requireDenom, require, if_true, pure_bind, peg, known, priced,
    priced', charged, left, worth, ok_bind]

/-- Paying out a burn fails only where there is no record of the backing, where more of it would
leave than there is, and where the payout is out of range. -/
theorem payout_error {backingPrice nativePrice net : Decimal} {denom : Denom} {fee : Coin}
    {failure : Failure} (positive : 0 < backingPrice.toRat) (positive' : 0 < nativePrice.toRat)
    (nonneg : 0 ≤ net.toRat)
    (failed : (do
      let out ← burnOut (.of e.store.params.backingRatio false) backingPrice nativePrice net
      e.requireBackingHeld (← e.backing denom).pool denom out.1
      pure ⟨⟨denom, out.1⟩, ⟨nativeDenom, out.2⟩, fee⟩ : Result BurnQuote) = .error failure) :
    e.backing denom = .error failure ∨
    (∃ records backingOut, e.backing denom = .ok records ∧
      e.requireBackingHeld records.pool denom backingOut = .error failure ∧
      backingOut * backingPrice.toRat ≤ net.toRat
        + roundingSlack net.toRat backingPrice.toRat nativePrice.toRat) ∨
    failure = .rejected .overflow ∧
      (Decimal.largest.toRat * backingPrice.toRat < net.toRat ∨
        Decimal.largest.toRat * nativePrice.toRat < net.toRat) := by
  rcases bind_error.mp failed with failed | ⟨⟨backingOut, nativeOut⟩, paid, failed⟩
  · exact .inr (.inr (burnOut_error positive positive' nonneg failed))
  · rcases bind_error.mp failed with failed | ⟨records, loaded, failed⟩
    · exact .inl failed
    · rcases bind_error.mp failed with failed | ⟨_, _, returned⟩
      · have within := burnOut_le positive positive' nonneg paid
        have native : 0 ≤ nativeOut * nativePrice.toRat := by positivity
        refine .inr (.inl ⟨records, backingOut, loaded, failed, ?_⟩)
        dsimp only [roundingSlack]
        linarith
      · cases returned

/-- A leg of a burn falls short by no more than one coin, half a unit's worth and the rounding of
decimals. -/
theorem leg_delivered {quoted paid price share value net burned : ℚ} (low : 0 ≤ share)
    (high : share ≤ 1) (nonneg : 0 ≤ value) (net_nonneg : 0 ≤ net)
    (net_le : net ≤ burned)
    (owed : quoted * price ≤ value * share + legSlack (value * share) price)
    (covers : value ≤ net + 1 / 2 + (2 + value + burned) / 10 ^ 28)
    (delivered : net * share < (paid + 1) * price + legSlack (net * share) price) :
    quoted * price < (paid + 1) * price + share / 2 + (12 + 12 * burned + 2 * price) / 10 ^ 28 := by
  have burned_nonneg := net_nonneg.trans net_le
  have scaled := mul_le_mul_of_nonneg_right covers low
  have part := mul_le_of_le_one_right nonneg high
  have part' := mul_le_of_le_one_right net_nonneg high
  have slack : (2 + value + burned) / 10 ^ 28 * share ≤ (2 + value + burned) / 10 ^ 28 :=
    mul_le_of_le_one_right (by positivity) high
  unfold legSlack at owed delivered
  linarith

/-- A backing ratio and prices in millionths, and an asset without burn fee. -/
structure FreeBurn (e : Engine) (denom : Denom) : Prop where
  digits : e.store.params.backingRatio.SixDigits
  priced : e.Priced denom
  nativePriced : e.Priced nativeDenom
  fee : ∀ params ∈ e.store.backingParams.get? denom, ∀ rate ∈ params.burnFee, rate.toRat = 0

instance (e : Engine) (denom : Denom) : Decidable (e.FreeBurn denom) :=
  decidable_of_iff
    (e.store.params.backingRatio.SixDigits ∧ e.Priced denom ∧ e.Priced nativeDenom ∧
      ∀ params ∈ e.store.backingParams.get? denom, ∀ rate ∈ params.burnFee, rate.toRat = 0)
    ⟨fun ⟨digits, priced, nativePriced, fee⟩ => ⟨digits, priced, nativePriced, fee⟩,
      fun ⟨digits, priced, nativePriced, fee⟩ => ⟨digits, priced, nativePriced, fee⟩⟩

/-- An engine whose module account holds ether both as backing and as collateral, while burning is
allowed. -/
def burnDesk (trader : Principal) (ratio price : Decimal) (burnFee : Option Decimal) : Engine :=
  (fresh { Params.initial with backingRatio := ratio } .initial).run
    [.registerBacking
        { denom := "ether"
          enabled := true
          maxBacking := none
          maxStableMint := none
          mintFee := none
          burnFee := burnFee
          buybackFee := none
          rebackFee := none },
      .registerCollateral
        { denom := "ether"
          enabled := true
          maxCollateral := none
          maxStableMint := none
          liquidationThreshold := percent 80
          loanToValue := percent 70
          basicLoanToValue := percent 60
          catalyticRatio := percent 5
          liquidationFee := percent 10
          mintFee := none
          interestRate := percent 10 },
      .setRate "ether" 1, .setRate nativeDenom 1, .setRate stableDenom (percent 105),
      .fund (.user trader) ⟨"ether", 1000⟩, .fund (.user trader) ⟨nativeDenom, 1000⟩,
      .transact trader (.mint ⟨none, ⟨stableDenom, 0⟩, ⟨"ether", 100⟩, ⟨nativeDenom, 0⟩, false⟩),
      .transact trader (.deposit ⟨none, ⟨"ether", 900⟩, ⟨nativeDenom, 0⟩⟩),
      .setRate "ether" price, .setRate stableDenom (percent 95)]

end Engine

end Stablecoin
