import Stablecoin.Proofs.Ceilings
import Stablecoin.Proofs.Exchange
import Stablecoin.Proofs.Fees
import Stablecoin.Proofs.SwapCosts
import Stablecoin.Proofs.SwapValue

/-!
# Executing a reback quote

The backing that a sale was quoted to take mints what is wanted up to one coin, and up to what one
gross coin would have added: the gross mint is truncated before bonus and fee are taken of it, and
each of these is rounded to the nearest coin. Where the gross mint comes out even nothing is lost.
-/
namespace Stablecoin

namespace Engine

variable {e : Engine}

/-- What a seller of backing gets per native token minted for it, by the stored parameters. -/
def rebackRate (e : Engine) (denom : Denom) : ℚ :=
  1 + e.store.params.rebackBonus.toRat
    - (((e.store.backingParams.get? denom).bind (·.rebackFee)).getD 0).toRat

/-! ### The multiplier -/

section Multiplier

variable {bonus fee multiplier : Decimal}

theorem rebackMultiplier_ok (computed : rebackMultiplier bonus fee = .ok multiplier) :
    ∃ sum, (1 : Decimal).add? bonus = some sum ∧ sum.sub? fee = some multiplier ∧
      0 < multiplier.toRat := by
  simp only [rebackMultiplier, bind_ok, Decimal.addTrusted_ok, Decimal.subTrusted_ok] at computed
  obtain ⟨sum, added, _, left, checked⟩ := computed
  split at checked
  next => simp [bind_ok, reject] at checked
  next above =>
    cases pure_ok.mp checked
    refine ⟨sum, added, left, ?_⟩
    rwa [Decimal.le_iff_toRat, Decimal.toRat_zero, not_le] at above

theorem rebackMultiplier_le (nonneg : 0 ≤ bonus.toRat) (low : 0 ≤ fee.toRat)
    (high : fee.toRat < 1) (computed : rebackMultiplier bonus fee = .ok multiplier) :
    multiplier.toRat ≤ 1 + bonus.toRat - fee.toRat + 3 * (2 + bonus.toRat) / 10 ^ 28 := by
  obtain ⟨sum, added, left, -⟩ := rebackMultiplier_ok computed
  have summed := ((Decimal.add?_rounded added).near).le (by rw [Decimal.toRat_one]; positivity)
  have rest : multiplier.Rounded (sum.toRat + (-fee).toRat) := Decimal.add?_rounded left
  have above := Decimal.lt_one_add? nonneg high added
  rw [Decimal.toRat_neg, ← sub_eq_add_neg] at rest
  have difference := rest.near.le (by linarith)
  rw [Decimal.toRat_one] at summed
  linarith

/-- Between millionths the multiplier is exact. -/
theorem rebackMultiplier_exact {part charge : Nat} (bonusIs : bonus.IsMillionths part)
    (feeIs : fee.IsMillionths charge) (few : part ≤ 10 ^ 9) (few' : charge ≤ 10 ^ 9)
    (computed : rebackMultiplier bonus fee = .ok multiplier) :
    multiplier.toRat = 1 + bonus.toRat - fee.toRat := by
  obtain ⟨sum, added, left, -⟩ := rebackMultiplier_ok computed
  have one : (1 : Decimal).IsMillionths 1000000 := by decide
  have negated : (-fee).IsMillionths (-charge) := by
    rw [Decimal.IsMillionths, Decimal.toRat_neg, feeIs]
    push_cast
    ring
  obtain ⟨_, same, summed⟩ := one.add bonusIs (by simp only [Decimal.coefficientBound]; omega)
  cases added.symm.trans (orOverflow_ok.mp same)
  obtain ⟨_, same, rest⟩ := summed.add negated (by simp only [Decimal.coefficientBound]; omega)
  cases left.symm.trans (orOverflow_ok.mp same)
  rw [rest, bonusIs, feeIs]
  push_cast
  ring

end Multiplier

/-! ### Up to rounding -/

section Bounds

variable {wanted minted multiplier value gross bonus fee rate cut price other taken : ℚ}

/-- What is minted, with bonus and fee, falls short by no more than a coin and what one gross coin
would have added. -/
theorem wanted_lt_sold (price_pos : 0 < price) (other_pos : 0 < other)
    (rate_nonneg : 0 ≤ rate) (cut_nonneg : 0 ≤ cut) (cut_lt : cut < 1)
    (multiplier_pos : 0 < multiplier)
    (gross_nonneg : 0 ≤ gross) (taken_nonneg : 0 ≤ taken)
    (multiplied : multiplier ≤ 1 + rate - cut + 3 * (2 + rate) / 10 ^ 28)
    (divided : wanted ≤ minted * multiplier + (wanted + multiplier) / 10 ^ 28)
    (valued : minted * price ≤ value + (1 + minted * price) / 10 ^ 28)
    (covered : value ≤ taken + (value + other) / 10 ^ 28)
    (back : value < (gross + 1) * price + (4 + 5 * taken + 2 * other + price) / 10 ^ 28)
    (back' : gross * price ≤ value + other + (2 + 4 * value + 4 * other + price) / 10 ^ 28)
    (rewarded : gross * rate < bonus + 1 / 2 + (1 + gross * rate) / 10 ^ 28)
    (charged : fee ≤ gross * cut + 1 / 2 + (1 + gross * cut) / 10 ^ 28) :
    wanted * price < (gross + bonus - fee + 1 + (1 + rate - cut)) * price
      + (1 + rate) * ((1 + taken + other + price) / 10 ^ 26) := by
  obtain ⟨size, sizeIs⟩ : ∃ size, size = 1 + taken + other + price := ⟨_, rfl⟩
  rw [← sizeIs]
  have size_pos : 0 < size := by linarith
  have grown : 0 ≤ size * rate := by positivity
  -- Everything is of the size of what is taken, and the multiplier of that of one and the bonus.
  have grossSize : (gross + 1) * price ≤ 4 * size := by linarith
  have factorSize : multiplier ≤ 2 * (1 + rate) := by linarith
  have spill : minted * price - (gross + 1) * price ≤ 13 * size / 10 ^ 28 := by linarith
  have scaled := mul_le_mul_of_nonneg_right spill multiplier_pos.le
  have spilled := mul_le_mul_of_nonneg_left factorSize (by positivity : 0 ≤ 13 * size / 10 ^ 28)
  have product := mul_le_mul_of_nonneg_left multiplied
    (by positivity : 0 ≤ (gross + 1) * price)
  have error := mul_le_mul_of_nonneg_right grossSize
    (by positivity : 0 ≤ 3 * (2 + rate) / 10 ^ 28)
  have coin := mul_le_mul_of_nonneg_right factorSize price_pos.le
  have priced := mul_le_mul_of_nonneg_right divided price_pos.le
  have bonusPriced := mul_lt_mul_of_pos_right rewarded price_pos
  have feePriced := mul_le_mul_of_nonneg_right charged price_pos.le
  have bonusSize := mul_le_mul_of_nonneg_right grossSize rate_nonneg
  have feeSize : gross * price * cut ≤ gross * price :=
    mul_le_of_le_one_right (by positivity) cut_lt.le
  have coinSize : price * rate ≤ size * rate := by gcongr; linarith
  have bonus_nonneg : 0 ≤ gross * price * rate ∧ 0 ≤ price * rate := ⟨by positivity, by positivity⟩
  have fee_nonneg : 0 ≤ gross * price * cut ∧ 0 ≤ price * cut := ⟨by positivity, by positivity⟩
  linarith

end Bounds

/-! ### At ordinary prices -/

section Gross

variable {denom : Denom} {wanted multiplier minted value price nativePrice returned : Decimal}
  {sold : Coin} {amount gross : Nat} (ordinary : e.Priced denom) (ordinary' : e.Priced nativeDenom)
  (priced : e.price denom = .ok price) (priced' : e.price nativeDenom = .ok nativePrice)
  (counted : wanted.toRat = amount) (few : amount < 10 ^ 12)
  (least : 1 / 10 ^ 6 ≤ multiplier.toRat) (divided : wanted.div multiplier = .ok minted)
  (valued : minted.mul nativePrice = .ok value)
  (worth : sold.worth price = .ok returned) (paid : value.payInAt price = .ok sold.amount)
  (exchanged : returned.payOutAt nativePrice = .ok gross)
include ordinary ordinary' priced priced' counted few least divided valued worth paid exchanged

/-- The backing quoted mints every whole number that the payout covers, and not many times more. -/
theorem le_gross : gross ≤ 2 * 10 ^ 18 ∧
    ∀ even : Nat, even * multiplier.toRat ≤ amount → even ≤ gross := by
  obtain ⟨_, same, range, -⟩ := ordinary.price
  cases priced.symm.trans same
  obtain ⟨_, same, range', whole', unit_pos', bounded'⟩ := ordinary'.price
  cases priced'.symm.trans same
  have few : (amount : ℚ) < 10 ^ 12 := by exact_mod_cast few
  have multiplier_pos : 0 < multiplier.toRat := by linarith
  have quotient := Decimal.div?_faithful (orOverflow_ok.mp divided)
  have product := Decimal.mul?_faithful (orOverflow_ok.mp valued)
  have priceIs : nativePrice.toRat = e.priceMillionths nativeDenom / 10 ^ 6 := whole'
  rw [counted] at quotient
  -- Whole numbers of native token have a value in millionths.
  have worthOf {n : Nat} (small : n ≤ 10 ^ 18) :
      ∃ exact' : Decimal, exact'.toRat = n * nativePrice.toRat := by
    have inRange : n * e.priceMillionths nativeDenom < Decimal.coefficientBound :=
      (Nat.mul_le_mul small bounded'.le).trans_lt (by norm_num [Decimal.coefficientBound])
    refine ⟨Decimal.ofMillionths (n * e.priceMillionths nativeDenom : Nat) inRange, ?_⟩
    rw [Decimal.ofMillionths_toRat, priceIs]
    push_cast
    ring
  -- Faithful rounding carries every bound that is a decimal over to the rounded result.
  have mintedSize : minted.toRat ≤ (10 ^ 18 : Nat) := by
    refine quotient.le_natCast ((div_le_iff₀ multiplier_pos).mpr ?_)
    push_cast
    linarith
  have valueSize : value.toRat ≤ (10 ^ 18 : Nat) * nativePrice.toRat := by
    obtain ⟨most, mostIs⟩ := worthOf le_rfl
    rw [← mostIs]
    refine product.le most ?_
    rw [mostIs]
    exact mul_le_mul_of_nonneg_right mintedSize range'.positive.le
  push_cast at mintedSize valueSize
  have wanted_nonneg : 0 ≤ wanted.toRat := counted ▸ Nat.cast_nonneg _
  have minted_nonneg := Decimal.div_nonneg divided wanted_nonneg multiplier_pos.le
  have value_nonneg := Decimal.mul_nonneg valued minted_nonneg range'.positive.le
  have bound :=
    Decimal.exchanged_le value_nonneg range.positive range'.positive paid worth exchanged
  have price_lt := range.below
  have native_lt := range'.below
  have native_ge : 1 / 10 ^ 6 ≤ nativePrice.toRat := by
    have cast : (1 : ℚ) ≤ e.priceMillionths nativeDenom := by exact_mod_cast unit_pos'
    rw [priceIs]
    gcongr
  constructor
  · have cast : (gross : ℚ) ≤ (2 * 10 ^ 18 : Nat) := by
      refine le_of_mul_le_mul_right ?_ range'.positive
      push_cast
      linarith
    exact_mod_cast cast
  · intro even covered
    have evenSize : even ≤ 10 ^ 18 := by
      have cast : (even : ℚ) ≤ (10 ^ 18 : Nat) := by
        refine le_of_mul_le_mul_right ?_ multiplier_pos
        push_cast
        linarith
      exact_mod_cast cast
    have evenMinted : (even : ℚ) ≤ minted.toRat :=
      quotient.natCast_le (evenSize.trans_lt (by norm_num [Decimal.coefficientBound]))
        ((le_div_iff₀ multiplier_pos).mpr covered)
    obtain ⟨worthEven, evenIs⟩ := worthOf evenSize
    have evenWorth : even * nativePrice.toRat ≤ value.toRat := by
      rw [← evenIs]
      refine product.ge worthEven ?_
      rw [evenIs]
      exact mul_le_mul_of_nonneg_right evenMinted range'.positive.le
    have returned_for := le_exchanged ordinary ordinary' priced priced' (by linarith) evenWorth
      worth paid exchanged
    exact returned_for.2

end Gross

/-- Prices, bonus and fee in millionths, and a bonus below a thousand. -/
structure OrdinarySale (e : Engine) (denom : Denom) : Prop where
  priced : e.Priced denom
  nativePriced : e.Priced nativeDenom
  bonusDigits : e.store.params.rebackBonus.SixDigits
  bonusBelow : e.store.params.rebackBonus.toRat < 1000
  feeDigits : ∀ params ∈ e.store.backingParams.get? denom, (params.rebackFee.getD 0).SixDigits

instance (e : Engine) (denom : Denom) : Decidable (e.OrdinarySale denom) :=
  decidable_of_iff
    (e.Priced denom ∧ e.Priced nativeDenom ∧ e.store.params.rebackBonus.SixDigits ∧
      e.store.params.rebackBonus.toRat < 1000 ∧
      ∀ params ∈ e.store.backingParams.get? denom, (params.rebackFee.getD 0).SixDigits)
    ⟨fun ⟨priced, nativePriced, digits, below, fee⟩ => ⟨priced, nativePriced, digits, below, fee⟩,
      fun ⟨priced, nativePriced, digits, below, fee⟩ => ⟨priced, nativePriced, digits, below, fee⟩⟩

/-- At ordinary prices and rates the multiplier is exact, what is paid is the gross mint times it up
to a coin, and every whole number that the payout covers has been minted. -/
theorem OrdinarySale.sold {denom : Denom} {params : BackingParams}
    {wanted multiplier minted value price nativePrice returned : Decimal} {sold bonus fee : Coin}
    {amount gross : Nat} (ordinary : e.OrdinarySale denom)
    (stored : e.store.backingParams.get? denom = some params)
    (bonus_nonneg : 0 ≤ e.store.params.rebackBonus.toRat) (fraction : IsFraction params.rebackFee)
    (multiplied : rebackMultiplier e.store.params.rebackBonus (params.rebackFee.getD 0)
      = .ok multiplier)
    (priced : e.price denom = .ok price) (priced' : e.price nativeDenom = .ok nativePrice)
    (counted : wanted.toRat = amount) (few : amount < 10 ^ 12)
    (divided : wanted.div multiplier = .ok minted) (valued : minted.mul nativePrice = .ok value)
    (worth : sold.worth price = .ok returned) (paid : value.payInAt price = .ok sold.amount)
    (exchanged : returned.payOutAt nativePrice = .ok gross)
    (rewarded : (Coin.mk nativeDenom gross).fee (some e.store.params.rebackBonus) = .ok bonus)
    (charged : (Coin.mk nativeDenom gross).fee params.rebackFee = .ok fee) :
    multiplier.toRat
        = 1 + e.store.params.rebackBonus.toRat - (params.rebackFee.getD 0).toRat ∧
      gross * multiplier.toRat < gross + bonus.amount - fee.amount + 1 ∧
      ∀ even : Nat, even * multiplier.toRat ≤ amount → even ≤ gross := by
  obtain ⟨low, high⟩ := fraction.getD
  obtain ⟨bonusIs, bonus_lt⟩ := ordinary.bonusDigits.natCast bonus_nonneg
    (ordinary.bonusBelow.trans_eq (by norm_num : (1000 : ℚ) = (1000 : Nat)))
  obtain ⟨feeIs, fee_lt⟩ := (ordinary.feeDigits params stored).natCast low
    (high.trans_eq (by norm_num : (1 : ℚ) = (1 : Nat)))
  have multiplierIs := rebackMultiplier_exact bonusIs feeIs (by omega) (by omega) multiplied
  have least : 1 / 10 ^ 6 ≤ multiplier.toRat := by
    have cast : ((params.rebackFee.getD 0).millionths.toNat + 1 : ℚ) ≤ 1000000 := by
      exact_mod_cast fee_lt
    rw [multiplierIs, feeIs, Int.cast_natCast]
    linarith
  obtain ⟨size, covers⟩ := le_gross ordinary.priced ordinary.nativePriced priced priced' counted few
    least divided valued worth paid exchanged
  have inRange {part : Nat} (small : part < 10 ^ 9) :
      gross * part < Decimal.coefficientBound :=
    (Nat.mul_le_mul size small.le).trans_lt (by norm_num [Decimal.coefficientBound])
  have bonus_nonneg' : ∀ r ∈ some e.store.params.rebackBonus, 0 ≤ r.toRat := by simpa
  have bonus_gt := (Coin.fee_millionths bonus_nonneg' rewarded bonusIs (inRange (by omega))).1
  have fee_le := (Coin.fee_millionths fraction.nonneg charged feeIs (inRange (by omega))).2
  rw [Option.getD_some] at bonus_gt
  dsimp only at bonus_gt fee_le
  refine ⟨multiplierIs, ?_, covers⟩
  rw [multiplierIs]
  linarith

/-- The backing that a payout was quoted to take sells for the payout up to one coin and what one
gross coin brings, and at ordinary prices and rates for all of it where the gross mint comes out
even. -/
theorem rebackCost_rebackQuote {nativeOut : Coin} {denom : Denom} {c : RebackCost} {q : RebackQuote}
    (validated : e.store.Validated) (costed : e.rebackCost nativeOut denom = .ok c)
    (quoted : e.rebackQuote c.backingIn = .ok q) :
    (e.AtPrices denom fun backingPrice nativePrice =>
      nativeOut.amount * nativePrice.toRat
        < (q.nativeOut.amount + 1 + e.rebackRate denom) * nativePrice.toRat
          + (1 + e.store.params.rebackBonus.toRat)
            * roundingSlack (c.backingIn.amount * backingPrice.toRat) backingPrice.toRat
              nativePrice.toRat) ∧
      (e.OrdinarySale denom → nativeOut.amount < 10 ^ 12 →
        nativeOut.amount < q.nativeOut.amount + 1 + e.rebackRate denom ∧
          ∀ even : Nat, even * e.rebackRate denom = nativeOut.amount →
            nativeOut.amount ≤ q.nativeOut.amount) := by
  obtain ⟨-, params, price, nativePrice, _, _, multiplier, wanted, minted, value, backingIn, _, _,
    _, known, priced, priced', -, -, multiplied, counted, divided, valued, paid, -, -, -, -, -,
    rfl⟩ := rebackCost_ok costed
  obtain ⟨_, _, _, _, _, _, returned, gross, bonus, fee, _, known', same, same', -, -, -, -, worth,
    exchanged, rewarded, charged, -, -, covered, rfl⟩ := rebackQuote_ok quoted
  -- Quote and execution look up the same parameters and prices.
  cases known.symm.trans known'
  cases priced.symm.trans same
  cases priced'.symm.trans same'
  obtain ⟨stored, -⟩ := backingParams_ok known
  have fraction :=
    (BackingParams.validate_rates (validated.backingParams _ params stored)).rebackFee
  obtain ⟨low, high⟩ := fraction.getD
  have bonus_nonneg := (Params.validate_rates validated.params).rebackBonus
  have bonus_nonneg' : ∀ r ∈ some e.store.params.rebackBonus, 0 ≤ r.toRat := by simpa
  obtain ⟨reported, positive⟩ := price_ok priced
  obtain ⟨reported', positive'⟩ := price_ok priced'
  obtain ⟨_, -, -, multiplier_pos⟩ := rebackMultiplier_ok multiplied
  have rateIs : e.rebackRate denom
      = 1 + e.store.params.rebackBonus.toRat - (params.rebackFee.getD 0).toRat := by
    rw [rebackRate, stored, Option.bind_some]
  have whole : wanted.toRat = nativeOut.amount := Decimal.ofAmount_toRat counted
  have wanted_nonneg : 0 ≤ wanted.toRat := whole ▸ Nat.cast_nonneg _
  have minted_nonneg := Decimal.div_nonneg divided wanted_nonneg multiplier_pos.le
  have nonneg := Decimal.mul_nonneg valued minted_nonneg positive'.le
  dsimp only
  rw [Nat.cast_sub covered, Nat.cast_add, rateIs]
  refine ⟨⟨price, nativePrice, reported, reported', ?_⟩, fun ordinary few => ?_⟩
  · have quotient := Decimal.le_div_mul wanted_nonneg multiplier_pos divided
    rw [whole] at quotient
    have near := (Decimal.mul_near valued).ge (by positivity)
    have covered := Decimal.le_payInAt nonneg positive paid
    have back := Decimal.lt_exchanged nonneg positive positive' paid worth exchanged
    have back' := Decimal.exchanged_le nonneg positive positive' paid worth exchanged
    have bonus_gt := Coin.lt_fee bonus_nonneg' rewarded
    have fee_le := Coin.fee_le fraction.nonneg charged
    rw [Option.getD_some] at bonus_gt
    have factor := rebackMultiplier_le bonus_nonneg low high multiplied
    exact wanted_lt_sold positive' positive bonus_nonneg low high multiplier_pos (Nat.cast_nonneg _)
      (by positivity) factor quotient near covered back back' bonus_gt fee_le
  · obtain ⟨multiplierIs, sold, covers⟩ := ordinary.sold stored bonus_nonneg fraction multiplied
      priced priced' whole few divided valued worth paid exchanged rewarded charged
    rw [← multiplierIs]
    refine ⟨?_, fun even whole => ?_⟩
    · -- One gross coin more would be more than the payout takes, or it would have been minted.
      have beyond : nativeOut.amount < (gross + 1) * multiplier.toRat := by
        by_contra covered
        have more := covers (gross + 1) (by push_cast; exact not_lt.mp covered)
        omega
      linarith
    · have kept : (even : ℚ) ≤ gross := by exact_mod_cast covers even whole.le
      have scaled := mul_le_mul_of_nonneg_right kept multiplier_pos.le
      have bound : (nativeOut.amount : ℚ) < (gross + bonus.amount - fee.amount + 1 : Nat) := by
        rw [Nat.cast_succ, Nat.cast_sub covered, Nat.cast_add]
        linarith
      exact Nat.lt_succ_iff.mp (by exact_mod_cast bound)

/-- The 383 coins wanted are what bonus and fee leave of 400, and the nine ether quoted mint 411. -/
theorem rebackCost_rebackQuote_movedDesk :
    let trader : Principal := ⟨[1], by decide⟩
    let e := movedDesk trader (percent 10000) (percent 137) (percent 3) none (some (percent 5))
    let wanted : Coin := ⟨nativeDenom, 383⟩
    let c : RebackCost := ⟨⟨"ether", 9⟩, ⟨nativeDenom, 20⟩⟩
    let q : RebackQuote := ⟨⟨nativeDenom, 393⟩, ⟨nativeDenom, 21⟩⟩
    e.store.Validated ∧ e.rebackCost wanted "ether" = .ok c ∧ e.rebackQuote c.backingIn = .ok q ∧
      wanted.amount < q.nativeOut.amount + 1 + e.rebackRate "ether" ∧
      wanted.amount ≤ q.nativeOut.amount := by
  intro trader e wanted c q
  have healthy : e.Healthy := run_healthy rfl .initial _
  have costed : e.rebackCost wanted "ether" = .ok c := by decide +kernel
  have quoted : e.rebackQuote c.backingIn = .ok q := by decide +kernel
  have ordinary : e.OrdinarySale "ether" := by decide +kernel
  have even : (400 : Nat) * e.rebackRate "ether" = wanted.amount := by decide +kernel
  have executed := (rebackCost_rebackQuote healthy.store.validated costed quoted).2 ordinary
    (by decide)
  exact ⟨healthy.store.validated, costed, quoted, executed.1, executed.2 400 even⟩

/-- 67 coins take 66.5 minted ones and a bonus, worth 200 ether, and 200 ether mint 66 coins, for
which there is no bonus. -/
theorem movedDesk_mints_less :
    let trader : Principal := ⟨[1], by decide⟩
    let e := movedDesk trader (percent 10000) 1 (percent 300) none none
    e.store.Validated ∧
      e.rebackCost ⟨nativeDenom, 67⟩ "ether" = .ok ⟨⟨"ether", 200⟩, .zero nativeDenom⟩ ∧
      e.rebackQuote ⟨"ether", 200⟩ = .ok ⟨⟨nativeDenom, 66⟩, .zero nativeDenom⟩ := by
  intro trader e
  have healthy : e.Healthy := run_healthy rfl .initial _
  exact ⟨healthy.store.validated, by decide +kernel, by decide +kernel⟩

end Engine

end Stablecoin
