import Stablecoin.Proofs.Ceilings
import Stablecoin.Proofs.Decimal.Order
import Stablecoin.Proofs.Exchange
import Stablecoin.Proofs.Fees
import Stablecoin.Proofs.Healthy
import Stablecoin.Proofs.SwapQuotes
import Stablecoin.Proofs.SwapValue

/-!
# More paid in, no less paid out

Of two swaps the one that pays in more gets no less. What larger amounts are worth is either the
same decimal or a larger value, and that is what conversions into another coin need to keep the
order, for quotients of one value in different digits may differ. A fee at a rate below one grows by
no more than the amount that it is taken from, if its share of the amount is exact.
-/
namespace Stablecoin

/-! ### Conversions -/

namespace Decimal

/-- A value pays no more at a price than a larger one. -/
theorem payOutAt_mono {value value' price : Decimal} {n m : Nat} (nonneg : 0 ≤ value.toRat)
    (positive : 0 < price.toRat) (below : value = value' ∨ value.toRat < value'.toRat)
    (paid : value.payOutAt price = .ok n) (paid' : value'.payOutAt price = .ok m) : n ≤ m := by
  simp only [payOutAt, div, bind_ok, orOverflow_ok] at paid paid'
  obtain ⟨quotient, divided, truncated⟩ := paid
  obtain ⟨quotient', divided', truncated'⟩ := paid'
  have ordered := div?_mono_left divided divided' nonneg positive below
  have quotient_nonneg := div?_nonneg divided nonneg positive.le
  rw [le_payOut_iff n truncated' (quotient_nonneg.trans ordered)]
  exact (payOut_le truncated quotient_nonneg).trans ordered

/-- At the peg only the values count. -/
theorem payOutAt_pegTarget_mono {value value' : Decimal} {n m : Nat} (nonneg : 0 ≤ value.toRat)
    (below : value.toRat ≤ value'.toRat) (paid : value.payOutAt pegTarget = .ok n)
    (paid' : value'.payOutAt pegTarget = .ok m) : n ≤ m := by
  rw [le_payOutAt_pegTarget_iff (nonneg.trans below) paid']
  exact ((le_payOutAt_pegTarget_iff nonneg paid n).mp le_rfl).trans below

end Decimal

namespace Coin

/-- Larger amounts are worth the same decimal or a larger value. -/
theorem worth_eq_or_lt {c c' : Coin} {price value value' : Decimal} (below : c.amount ≤ c'.amount)
    (nonneg : 0 ≤ price.toRat) (valued : c.worth price = .ok value)
    (valued' : c'.worth price = .ok value') : value = value' ∨ value.toRat < value'.toRat := by
  simp only [worth, toDecimal, Decimal.mul, bind_ok, orOverflow_ok] at valued valued'
  obtain ⟨amount, counted, multiplied⟩ := valued
  obtain ⟨amount', counted', multiplied'⟩ := valued'
  have whole := (Decimal.ofParts?_eq_some.mp (orOverflow_ok.mp counted)).2
  have whole' := (Decimal.ofParts?_eq_some.mp (orOverflow_ok.mp counted')).2
  refine Decimal.mul?_eq_or_lt multiplied multiplied' whole whole' ?_ nonneg ?_
  · rw [Decimal.ofAmount_toRat counted]
    positivity
  · rw [Decimal.ofAmount_toRat counted, Decimal.ofAmount_toRat counted']
    exact_mod_cast below

theorem worth_mono {c c' : Coin} {price value value' : Decimal} (below : c.amount ≤ c'.amount)
    (nonneg : 0 ≤ price.toRat) (valued : c.worth price = .ok value)
    (valued' : c'.worth price = .ok value') : value.toRat ≤ value'.toRat := by
  rcases worth_eq_or_lt below nonneg valued valued' with rfl | less
  · exact le_rfl
  · exact less.le

/-- Units are worth themselves at the peg, so that a share of their value is their worth at the
share. -/
theorem share_eq_or_lt {c c' : Coin} {share value value' product product' : Decimal}
    (below : c.amount ≤ c'.amount) (nonneg : 0 ≤ share.toRat)
    (valued : c.worth pegTarget = .ok value) (valued' : c'.worth pegTarget = .ok value')
    (multiplied : value.mul share = .ok product) (multiplied' : value'.mul share = .ok product') :
    product = product' ∨ product.toRat < product'.toRat := by
  rw [worth_pegTarget] at valued valued'
  exact worth_eq_or_lt below nonneg (bind_ok.mpr ⟨value, valued, multiplied⟩)
    (bind_ok.mpr ⟨value', valued', multiplied'⟩)

/-! ### Fees -/

section Fee

variable {c c' fee fee' : Coin} {rate : Option Decimal} (fraction : IsFraction rate)
  (digits : ∀ r ∈ rate, r.DigitsWithin 12)
include fraction digits

/-- The share of a moderate amount at a rate of twelve digits is exact, and only the fee itself is
rounded. -/
theorem fee_digits (small : c.amount < 10 ^ 16) (charged : c.fee rate = .ok fee) :
    c.amount * (rate.getD 0).toRat - 1 / 2 < fee.amount ∧
      (fee.amount : ℚ) ≤ c.amount * (rate.getD 0).toRat + 1 / 2 := by
  obtain ⟨low, high⟩ := fraction.getD
  have few : (rate.getD 0).DigitsWithin 12 := by
    cases rate with
    | none => exact ⟨0, by norm_num⟩
    | some rate => exact digits rate rfl
  obtain ⟨part, whole⟩ := few.natCast low
  have part_le : part ≤ 10 ^ 12 := by
    rw [whole, div_lt_one (by positivity)] at high
    exact_mod_cast high.le
  have inRange : c.amount * part < Decimal.coefficientBound :=
    (Nat.mul_le_mul small.le part_le).trans_lt (by norm_num [Decimal.coefficientBound])
  have same : c.amount * (rate.getD 0).toRat
      = (⟨(c.amount * part : Nat), 12, inRange, by decide⟩ : Decimal).toRat := by
    rw [whole, Decimal.toRat_eq]
    push_cast
    ring
  exact fee_exact fraction.nonneg charged same

variable (below : c.amount ≤ c'.amount) (small : c'.amount < 10 ^ 16)
  (charged : c.fee rate = .ok fee) (charged' : c'.fee rate = .ok fee')
include below small charged charged'

/-- The fee on a larger amount is no smaller. -/
theorem fee_mono : fee.amount ≤ fee'.amount := by
  obtain ⟨nonneg, -⟩ := fraction.getD
  obtain ⟨-, most⟩ := fee_digits fraction digits (below.trans_lt small) charged
  obtain ⟨least, -⟩ := fee_digits fraction digits small charged'
  have cast : (c.amount : ℚ) ≤ c'.amount := by exact_mod_cast below
  have scaled := mul_le_mul_of_nonneg_right cast nonneg
  have close : (fee.amount : ℚ) < fee'.amount + 1 := by linarith
  exact Nat.lt_succ_iff.mp (by exact_mod_cast close)

/-- A fee grows by no more than the amount that it is taken from. -/
theorem fee_sub_mono : c.amount + fee'.amount ≤ c'.amount + fee.amount := by
  rcases below.eq_or_lt with same | less
  · -- Equal amounts have equal fees.
    have equal := fee_mono fraction digits same.ge (same ▸ small) charged' charged
    omega
  · obtain ⟨-, high⟩ := fraction.getD
    obtain ⟨least, -⟩ := fee_digits fraction digits (below.trans_lt small) charged
    obtain ⟨-, most⟩ := fee_digits fraction digits small charged'
    have cast : (c.amount : ℚ) < c'.amount := by exact_mod_cast less
    have scaled := mul_lt_mul_of_pos_left high (sub_pos.mpr cast)
    have close : (c.amount + fee'.amount : ℚ) < c'.amount + fee.amount + 1 := by linarith
    exact Nat.lt_succ_iff.mp (by exact_mod_cast close)

end Fee

end Coin

/-- Fee rates of twelve digits at most. -/
structure BackingParams.FewDigits (p : BackingParams) : Prop where
  mintFee : ∀ rate ∈ p.mintFee, rate.DigitsWithin 12
  burnFee : ∀ rate ∈ p.burnFee, rate.DigitsWithin 12
  buybackFee : ∀ rate ∈ p.buybackFee, rate.DigitsWithin 12
  rebackFee : ∀ rate ∈ p.rebackFee, rate.DigitsWithin 12

namespace Engine

variable {e : Engine} {denom : Denom} {params : BackingParams} (valid : e.store.Validated)
  (registered : e.store.backingParams.get? denom = some params)

/-- What coins buy of another denomination at the reported prices, fees apart. -/
def exchanged (e : Engine) (coin : Coin) (denom : Denom) : Result Nat := do
  (← coin.worth (← e.price coin.denom)).payOutAt (← e.price denom)

/-! ### Burning -/

/-- Both legs of a burn grow with the amount that is burned. -/
theorem burnOut_mono {ratio backingPrice nativePrice value value' : Decimal} {forced : Bool}
    {c c' : Coin} {backingOut nativeOut backingOut' nativeOut' : Nat}
    (positive : 0 < backingPrice.toRat) (positive' : 0 < nativePrice.toRat)
    (below : c.amount ≤ c'.amount) (valued : c.worth pegTarget = .ok value)
    (valued' : c'.worth pegTarget = .ok value')
    (legs : burnOut (.of ratio forced) backingPrice nativePrice value
      = .ok (backingOut, nativeOut))
    (legs' : burnOut (.of ratio forced) backingPrice nativePrice value'
      = .ok (backingOut', nativeOut')) :
    backingOut ≤ backingOut' ∧ nativeOut ≤ nativeOut' := by
  have nonneg := Coin.worth_nonneg valued pegTarget_pos
  have ordered := Coin.worth_eq_or_lt below pegTarget_pos.le valued valued'
  cases mixed : Mix.of ratio forced with
  | fullBacking =>
    rw [mixed] at legs legs'
    simp only [burnOut, bind_ok, pure_ok, Prod.mk.injEq] at legs legs'
    obtain ⟨_, paid, rfl, rfl⟩ := legs
    obtain ⟨_, paid', rfl, rfl⟩ := legs'
    exact ⟨Decimal.payOutAt_mono nonneg positive ordered paid paid', le_rfl⟩
  | algorithmic =>
    rw [mixed] at legs legs'
    simp only [burnOut, bind_ok, pure_ok, Prod.mk.injEq] at legs legs'
    obtain ⟨_, paid, rfl, rfl⟩ := legs
    obtain ⟨_, paid', rfl, rfl⟩ := legs'
    exact ⟨le_rfl, Decimal.payOutAt_mono nonneg positive' ordered paid paid'⟩
  | fractional share =>
    obtain ⟨above, under⟩ := mix_fractional mixed
    rw [mixed] at legs legs'
    simp only [burnOut, bind_ok, Decimal.subTrusted_ok, pure_ok, Prod.mk.injEq] at legs legs'
    obtain ⟨part, shared, _, paid, rest, left, part', shared', _, paid', rfl, rfl⟩ := legs
    obtain ⟨_, again, _, more, _, same, _, again', _, more', rfl, rfl⟩ := legs'
    cases left.symm.trans same
    have restIs := Decimal.one_sub?_toRat above.le under.le left
    have under' : 0 ≤ rest.toRat := by linarith
    exact ⟨Decimal.payOutAt_mono (Decimal.mul_nonneg shared nonneg above.le) positive
        (Coin.share_eq_or_lt below above.le valued valued' shared again) paid more,
      Decimal.payOutAt_mono (Decimal.mul_nonneg shared' nonneg under') positive'
        (Coin.share_eq_or_lt below under' valued valued' shared' again') paid' more'⟩

include valid registered

theorem burnQuote_mono (digits : ∀ rate ∈ params.burnFee, rate.DigitsWithin 12)
    {burnIn burnIn' : Coin} {q q' : BurnQuote} (quoted : e.burnQuote burnIn denom = .ok q)
    (quoted' : e.burnQuote burnIn' denom = .ok q') (below : burnIn.amount ≤ burnIn'.amount)
    (small : burnIn'.amount < 10 ^ 16) :
    q.backingOut.amount ≤ q'.backingOut.amount ∧ q.nativeOut.amount ≤ q'.nativeOut.amount := by
  obtain ⟨-, -, _, backingPrice, nativePrice, fee, value, _, _, _, known, priced, priced', charged,
    covered, valued, legs, -, -, -, rfl⟩ := burnQuote_ok quoted
  obtain ⟨-, -, _, _, _, fee', value', _, _, _, known', same, same', charged', covered', valued',
    legs', -, -, -, rfl⟩ := burnQuote_ok quoted'
  cases priced.symm.trans same
  cases priced'.symm.trans same'
  cases known.symm.trans known'
  cases registered.symm.trans (backingParams_ok known).1
  have rates := BackingParams.validate_rates (valid.backingParams _ _ registered)
  have rest := Coin.fee_sub_mono rates.burnFee digits below small charged charged'
  exact burnOut_mono (price_ok priced).2 (price_ok priced').2 (by dsimp only; omega) valued valued'
    legs legs'

/-! ### Buying and selling backing -/

omit valid registered in
theorem exchanged_ok {c : Coin} {price price' value : Decimal} {n : Nat}
    (priced : e.price c.denom = .ok price) (priced' : e.price denom = .ok price')
    (valued : c.worth price = .ok value) (paid : value.payOutAt price' = .ok n) :
    e.exchanged c denom = .ok n := by
  simp only [exchanged, bind_ok]
  exact ⟨price, priced, value, valued, price', priced', paid⟩

omit valid registered in
/-- Larger amounts buy no less. -/
theorem exchanged_mono {c c' : Coin} {n m : Nat} (alike : c.denom = c'.denom)
    (below : c.amount ≤ c'.amount) (bought : e.exchanged c denom = .ok n)
    (bought' : e.exchanged c' denom = .ok m) : n ≤ m := by
  simp only [exchanged, bind_ok] at bought bought'
  obtain ⟨price, priced, value, valued, price', priced', paid⟩ := bought
  obtain ⟨_, same, _, valued', _, same', paid'⟩ := bought'
  rw [← alike] at same
  cases priced.symm.trans same
  cases priced'.symm.trans same'
  have positive := (price_ok priced).2
  exact Decimal.payOutAt_mono (Coin.worth_nonneg valued positive) (price_ok priced').2
    (Coin.worth_eq_or_lt below positive.le valued valued') paid paid'

theorem buybackQuote_mono (digits : ∀ rate ∈ params.buybackFee, rate.DigitsWithin 12)
    {nativeIn nativeIn' : Coin} {q q' : BuybackQuote} {total : Nat}
    (quoted : e.buybackQuote nativeIn denom = .ok q)
    (quoted' : e.buybackQuote nativeIn' denom = .ok q') (below : nativeIn.amount ≤ nativeIn'.amount)
    (gross : e.exchanged nativeIn' denom = .ok total) (small : total < 10 ^ 16) :
    q.backingOut.amount ≤ q'.backingOut.amount := by
  obtain ⟨native, _, price, nativePrice, _, value, bought, _, fee, known, priced, priced', -, valued,
    -, paid, -, -, -, charged, covered, rfl⟩ := buybackQuote_ok quoted
  obtain ⟨native', _, _, _, _, value', bought', _, fee', known', same, same', -, valued', -, paid',
    -, -, -, charged', covered', rfl⟩ := buybackQuote_ok quoted'
  cases known.symm.trans known'
  cases registered.symm.trans (backingParams_ok known).1
  have rates := BackingParams.validate_rates (valid.backingParams _ _ registered)
  have less := exchanged_ok (native ▸ priced') priced valued paid
  have more := exchanged_ok (native' ▸ same') same valued' paid'
  cases gross.symm.trans more
  have grown := exchanged_mono (native.trans native'.symm) below less more
  have rest := Coin.fee_sub_mono rates.buybackFee digits grown small charged charged'
  dsimp only at covered covered' rest ⊢
  omega

theorem rebackQuote_mono (digits : ∀ rate ∈ params.rebackFee, rate.DigitsWithin 12)
    (bonusDigits : e.store.params.rebackBonus.DigitsWithin 12)
    (bonusBelow : e.store.params.rebackBonus.toRat < 1) {backingIn backingIn' : Coin}
    {q q' : RebackQuote} {minted : Nat} (asset : backingIn.denom = denom)
    (asset' : backingIn'.denom = denom) (quoted : e.rebackQuote backingIn = .ok q)
    (quoted' : e.rebackQuote backingIn' = .ok q') (below : backingIn.amount ≤ backingIn'.amount)
    (gross : e.exchanged backingIn' nativeDenom = .ok minted) (small : minted < 10 ^ 16) :
    q.nativeOut.amount ≤ q'.nativeOut.amount := by
  obtain ⟨_, price, nativePrice, _, _, _, value, bought, bonus, fee, _, known, priced, priced', -, -,
    -, -, valued, paid, rewarded, charged, -, -, covered, rfl⟩ := rebackQuote_ok quoted
  obtain ⟨_, _, _, _, _, _, value', bought', bonus', fee', _, known', same, same', -, -, -, -,
    valued', paid', rewarded', charged', -, -, covered', rfl⟩ := rebackQuote_ok quoted'
  rw [asset] at known
  rw [asset'] at known'
  cases known.symm.trans known'
  cases registered.symm.trans (backingParams_ok known).1
  have rates := BackingParams.validate_rates (valid.backingParams _ _ registered)
  have bonusRate : IsFraction (some e.store.params.rebackBonus) := by
    rintro rate ⟨⟩
    exact ⟨(Params.validate_rates valid.params).rebackBonus, bonusBelow⟩
  have bonusFew : ∀ rate ∈ some e.store.params.rebackBonus, rate.DigitsWithin 12 := by
    rintro rate ⟨⟩
    exact bonusDigits
  have less := exchanged_ok priced priced' valued paid
  have more := exchanged_ok same same' valued' paid'
  cases gross.symm.trans more
  have grown := exchanged_mono (asset.trans asset'.symm) below less more
  have rest := Coin.fee_sub_mono rates.rebackFee digits grown small charged charged'
  have reward := Coin.fee_mono bonusRate bonusFew grown small rewarded rewarded'
  dsimp only at covered covered' rest ⊢
  omega

/-! ### Minting -/

omit valid registered in
/-- Between two positive caps the smaller of the values that they allow is minted. -/
theorem fractionalMint_value {ratio backingPrice nativePrice : Decimal} {backingMax nativeMax : Coin}
    {backingMaxValue nativeMaxValue value : Decimal} {backingIn nativeIn : Nat}
    (positive : 0 < backingMax.amount) (positive' : 0 < nativeMax.amount)
    (legs : fractionalMint ratio backingPrice nativePrice backingMax nativeMax backingMaxValue
      nativeMaxValue = .ok (value, backingIn, nativeIn)) :
    ∃ byBacking rest byNative, backingMaxValue.div? ratio = some byBacking ∧
      (1 : Decimal).sub? ratio = some rest ∧ nativeMaxValue.div? rest = some byNative ∧
      value.toRat = min byBacking.toRat byNative.toRat := by
  simp only [fractionalMint, bind_ok, Decimal.subTrusted_ok, Decimal.div, orOverflow_ok] at legs
  obtain ⟨byBacking, backed, rest, left, byNative, limited, legs⟩ := legs
  refine ⟨byBacking, rest, byNative, backed, left, limited, ?_⟩
  have binds : (backingMax.isPositive ∧ (nativeMax.isZero ∨ byBacking ≤ byNative)) ↔
      byBacking ≤ byNative := by
    simp [Coin.isPositive, Coin.isZero, positive, positive'.ne']
  simp only [binds] at legs
  split at legs
  next backing =>
    simp only [bind_ok, pure_ok, Prod.mk.injEq] at legs
    obtain ⟨_, -, _, -, _, -, rfl, -⟩ := legs
    exact (min_eq_left (Decimal.le_iff_toRat.mp backing)).symm
  next native =>
    simp only [bind_ok, pure_ok, Prod.mk.injEq] at legs
    obtain ⟨_, -, _, -, rfl, -⟩ := legs
    exact (min_eq_right (not_le.mp (Decimal.le_iff_toRat.not.mp native)).le).symm

omit valid registered in
/-- The value of a mint grows with its caps. -/
theorem mintWithin_mono {ratio backingPrice nativePrice backingValue nativeValue backingValue'
    nativeValue' value value' : Decimal} {forced : Bool} {backingMax nativeMax backingMax'
    nativeMax' : Coin} {backingIn nativeIn backingIn' nativeIn' : Nat}
    (positive : 0 < backingPrice.toRat) (positive' : 0 < nativePrice.toRat)
    (capped : 0 < backingMax.amount) (capped' : 0 < nativeMax.amount)
    (below : backingMax.amount ≤ backingMax'.amount) (below' : nativeMax.amount ≤ nativeMax'.amount)
    (valued : backingMax.worth backingPrice = .ok backingValue)
    (nativeValued : nativeMax.worth nativePrice = .ok nativeValue)
    (valued' : backingMax'.worth backingPrice = .ok backingValue')
    (nativeValued' : nativeMax'.worth nativePrice = .ok nativeValue')
    (legs : mintWithin (.of ratio forced) backingPrice nativePrice backingMax nativeMax backingValue
      nativeValue = .ok (value, backingIn, nativeIn))
    (legs' : mintWithin (.of ratio forced) backingPrice nativePrice backingMax' nativeMax'
      backingValue' nativeValue' = .ok (value', backingIn', nativeIn')) :
    0 ≤ value.toRat ∧ value.toRat ≤ value'.toRat := by
  have nonneg := Coin.worth_nonneg valued positive
  have nonneg' := Coin.worth_nonneg nativeValued positive'
  cases mixed : Mix.of ratio forced with
  | fullBacking =>
    rw [mixed] at legs legs'
    cases pure_ok.mp legs
    cases pure_ok.mp legs'
    exact ⟨nonneg, Coin.worth_mono below positive.le valued valued'⟩
  | algorithmic =>
    rw [mixed] at legs legs'
    cases pure_ok.mp legs
    cases pure_ok.mp legs'
    exact ⟨nonneg', Coin.worth_mono below' positive'.le nativeValued nativeValued'⟩
  | fractional share =>
    obtain ⟨above, under⟩ := mix_fractional mixed
    rw [mixed] at legs legs'
    obtain ⟨byBacking, rest, byNative, backed, left, limited, smaller⟩ :=
      fractionalMint_value capped capped' legs
    obtain ⟨byBacking', _, byNative', backed', same, limited', smaller'⟩ :=
      fractionalMint_value (capped.trans_le below) (capped'.trans_le below') legs'
    cases left.symm.trans same
    have restIs := Decimal.one_sub?_toRat above.le under.le left
    have rest_pos : 0 < rest.toRat := by linarith
    rw [smaller, smaller']
    exact ⟨le_min (Decimal.div?_nonneg backed nonneg above.le)
        (Decimal.div?_nonneg limited nonneg' rest_pos.le),
      min_le_min
        (Decimal.div?_mono_left backed backed' nonneg above
          (Coin.worth_eq_or_lt below positive.le valued valued'))
        (Decimal.div?_mono_left limited limited' nonneg' rest_pos
          (Coin.worth_eq_or_lt below' positive'.le nativeValued nativeValued'))⟩

theorem mintQuote_mono (digits : ∀ rate ∈ params.mintFee, rate.DigitsWithin 12)
    {backingMax nativeMax backingMax' nativeMax' : Coin} {fullBacking : Bool} {q q' : MintQuote}
    (asset : backingMax.denom = denom) (asset' : backingMax'.denom = denom)
    (capped : 0 < backingMax.amount) (capped' : 0 < nativeMax.amount)
    (below : backingMax.amount ≤ backingMax'.amount) (below' : nativeMax.amount ≤ nativeMax'.amount)
    (quoted : e.mintQuote backingMax nativeMax fullBacking = .ok q)
    (quoted' : e.mintQuote backingMax' nativeMax' fullBacking = .ok q')
    (small : q'.mintOut.amount + q'.mintFee.amount < 10 ^ 16) :
    q.mintOut.amount ≤ q'.mintOut.amount := by
  obtain ⟨-, -, _, price, nativePrice, backingValue, nativeValue, value, _, _, total, _, _, _, fee,
    known, priced, priced', valued, nativeValued, legs, paid, -, -, -, -, -, charged, covered, rfl⟩ :=
    mintQuote_ok quoted
  obtain ⟨-, -, _, _, _, backingValue', nativeValue', value', _, _, total', _, _, _, fee', known',
    same, same', valued', nativeValued', legs', paid', -, -, -, -, -, charged', covered', rfl⟩ :=
    mintQuote_ok quoted'
  rw [asset] at known priced
  rw [asset'] at known' same
  cases known.symm.trans known'
  cases priced.symm.trans same
  cases priced'.symm.trans same'
  cases registered.symm.trans (backingParams_ok known).1
  have rates := BackingParams.validate_rates (valid.backingParams _ _ registered)
  obtain ⟨nonneg, ordered⟩ := mintWithin_mono (price_ok priced).2 (price_ok priced').2 capped capped'
    below below' valued nativeValued valued' nativeValued' legs legs'
  have grown := Decimal.payOutAt_pegTarget_mono nonneg ordered paid paid'
  dsimp only at small
  have rest := Coin.fee_sub_mono rates.mintFee digits grown (by dsimp only; omega) charged charged'
  dsimp only at covered covered' rest ⊢
  omega

/-! ### All swaps -/

/-- Whoever pays in more gets no less: burning more units pays no less of either coin, more native
token buys no less backing, more backing sells for no less native token, and larger caps mint no
fewer units. Rates have twelve digits at most, and the amounts that fees are taken from are below
`10 ^ 16`. -/
theorem quotes_mono (digits : params.FewDigits)
    (bonusDigits : e.store.params.rebackBonus.DigitsWithin 12)
    (bonusBelow : e.store.params.rebackBonus.toRat < 1) :
    (∀ (burnIn burnIn' : Coin) (q q' : BurnQuote), e.burnQuote burnIn denom = .ok q →
        e.burnQuote burnIn' denom = .ok q' → burnIn.amount ≤ burnIn'.amount →
        burnIn'.amount < 10 ^ 16 →
        q.backingOut.amount ≤ q'.backingOut.amount ∧ q.nativeOut.amount ≤ q'.nativeOut.amount) ∧
      (∀ (nativeIn nativeIn' : Coin) (q q' : BuybackQuote) (total : Nat),
        e.buybackQuote nativeIn denom = .ok q → e.buybackQuote nativeIn' denom = .ok q' →
        nativeIn.amount ≤ nativeIn'.amount → e.exchanged nativeIn' denom = .ok total →
        total < 10 ^ 16 → q.backingOut.amount ≤ q'.backingOut.amount) ∧
      (∀ (backingIn backingIn' : Coin) (q q' : RebackQuote) (minted : Nat),
        backingIn.denom = denom → backingIn'.denom = denom → e.rebackQuote backingIn = .ok q →
        e.rebackQuote backingIn' = .ok q' → backingIn.amount ≤ backingIn'.amount →
        e.exchanged backingIn' nativeDenom = .ok minted → minted < 10 ^ 16 →
        q.nativeOut.amount ≤ q'.nativeOut.amount) ∧
      ∀ (backingMax nativeMax backingMax' nativeMax' : Coin) (fullBacking : Bool) (q q' : MintQuote),
        backingMax.denom = denom → backingMax'.denom = denom → 0 < backingMax.amount →
        0 < nativeMax.amount → backingMax.amount ≤ backingMax'.amount →
        nativeMax.amount ≤ nativeMax'.amount →
        e.mintQuote backingMax nativeMax fullBacking = .ok q →
        e.mintQuote backingMax' nativeMax' fullBacking = .ok q' →
        q'.mintOut.amount + q'.mintFee.amount < 10 ^ 16 → q.mintOut.amount ≤ q'.mintOut.amount :=
  ⟨fun _ _ _ _ => burnQuote_mono valid registered digits.burnFee,
    fun _ _ _ _ _ => buybackQuote_mono valid registered digits.buybackFee,
    fun _ _ _ _ _ => rebackQuote_mono valid registered digits.rebackFee bonusDigits bonusBelow,
    fun _ _ _ _ _ _ _ => mintQuote_mono valid registered digits.mintFee⟩

omit valid registered in
/-- With fees of one percent the 150th unit that is burned goes to the fee and pays nothing more. A
fourth coin of backing sells for 23 more of the native token, 67 more of which buy one more coin of
backing, and a cap on backing of 150 instead of 100 mints 96 more units. -/
theorem quotes_mono_swapDesk :
    let trader : Principal := ⟨[1], by decide⟩
    let below := swapDesk trader (percent 95) (percent 97)
    let rich := swapDesk trader (percent 95) (percent 200)
    let short := swapDesk trader (percent 95) (percent 70)
    let above := swapDesk trader (percent 105) (percent 97)
    let params : BackingParams :=
      { denom := "usdc"
        enabled := true
        maxBacking := none
        maxStableMint := none
        mintFee := some (percent 1)
        burnFee := some (percent 1)
        buybackFee := some (percent 1)
        rebackFee := some (percent 1) }
    let burned : BurnQuote := ⟨⟨"usdc", 76⟩, ⟨nativeDenom, 2466⟩, ⟨stableDenom, 1⟩⟩
    let burned' : BurnQuote := ⟨⟨"usdc", 76⟩, ⟨nativeDenom, 2466⟩, ⟨stableDenom, 2⟩⟩
    let bought : BuybackQuote := ⟨⟨"usdc", 148⟩, ⟨"usdc", 2⟩⟩
    let bought' : BuybackQuote := ⟨⟨"usdc", 149⟩, ⟨"usdc", 2⟩⟩
    let sold : RebackQuote := ⟨⟨nativeDenom, 70⟩, ⟨nativeDenom, 1⟩⟩
    let sold' : RebackQuote := ⟨⟨nativeDenom, 93⟩, ⟨nativeDenom, 1⟩⟩
    let minted : MintQuote :=
      ⟨⟨"usdc", 100⟩, ⟨nativeDenom, 3234⟩, ⟨stableDenom, 192⟩, ⟨stableDenom, 2⟩⟩
    let minted' : MintQuote :=
      ⟨⟨"usdc", 150⟩, ⟨nativeDenom, 4850⟩, ⟨stableDenom, 288⟩, ⟨stableDenom, 3⟩⟩
    params.FewDigits ∧
      (below.store.Validated ∧ below.store.backingParams.get? "usdc" = some params ∧
        below.burnQuote ⟨stableDenom, 149⟩ "usdc" = .ok burned ∧
        below.burnQuote ⟨stableDenom, 150⟩ "usdc" = .ok burned' ∧
        burned.backingOut.amount ≤ burned'.backingOut.amount ∧
        burned.nativeOut.amount ≤ burned'.nativeOut.amount) ∧
      (rich.store.Validated ∧ rich.store.backingParams.get? "usdc" = some params ∧
        rich.buybackQuote ⟨nativeDenom, 10000⟩ "usdc" = .ok bought ∧
        rich.buybackQuote ⟨nativeDenom, 10067⟩ "usdc" = .ok bought' ∧
        bought.backingOut.amount ≤ bought'.backingOut.amount) ∧
      (short.store.Validated ∧ short.store.backingParams.get? "usdc" = some params ∧
        short.rebackQuote ⟨"usdc", 3⟩ = .ok sold ∧ short.rebackQuote ⟨"usdc", 4⟩ = .ok sold' ∧
        sold.nativeOut.amount ≤ sold'.nativeOut.amount) ∧
      above.store.Validated ∧ above.store.backingParams.get? "usdc" = some params ∧
        above.mintQuote ⟨"usdc", 100⟩ ⟨nativeDenom, 5000⟩ false = .ok minted ∧
        above.mintQuote ⟨"usdc", 150⟩ ⟨nativeDenom, 5000⟩ false = .ok minted' ∧
        minted.mintOut.amount ≤ minted'.mintOut.amount := by
  intro trader below rich short above params burned burned' bought bought' sold sold' minted minted'
  have twelve {rate : Decimal} (given : rate ∈ some (percent 1)) : rate.DigitsWithin 12 := by
    cases given
    decide +kernel
  have digits : params.FewDigits :=
    ⟨fun _ => twelve, fun _ => twelve, fun _ => twelve, fun _ => twelve⟩
  obtain ⟨burning, bonus, bounded, less, more⟩ :
      below.store.backingParams.get? "usdc" = some params ∧
        below.store.params.rebackBonus.DigitsWithin 12 ∧
        below.store.params.rebackBonus.toRat < 1 ∧
        below.burnQuote ⟨stableDenom, 149⟩ "usdc" = .ok burned ∧
        below.burnQuote ⟨stableDenom, 150⟩ "usdc" = .ok burned' := by
    decide +kernel
  have burner : below.store.Validated := (run_healthy rfl .initial _).store.validated
  obtain ⟨burns, -⟩ := quotes_mono burner burning digits bonus bounded
  obtain ⟨buying, bonus, bounded, fewer, other, total⟩ :
      rich.store.backingParams.get? "usdc" = some params ∧
        rich.store.params.rebackBonus.DigitsWithin 12 ∧
        rich.store.params.rebackBonus.toRat < 1 ∧
        rich.buybackQuote ⟨nativeDenom, 10000⟩ "usdc" = .ok bought ∧
        rich.buybackQuote ⟨nativeDenom, 10067⟩ "usdc" = .ok bought' ∧
        rich.exchanged ⟨nativeDenom, 10067⟩ "usdc" = .ok 151 := by
    decide +kernel
  have buyer : rich.store.Validated := (run_healthy rfl .initial _).store.validated
  obtain ⟨-, buys, -⟩ := quotes_mono buyer buying digits bonus bounded
  obtain ⟨selling, bonus, bounded, three, four, gross⟩ :
      short.store.backingParams.get? "usdc" = some params ∧
        short.store.params.rebackBonus.DigitsWithin 12 ∧
        short.store.params.rebackBonus.toRat < 1 ∧
        short.rebackQuote ⟨"usdc", 3⟩ = .ok sold ∧ short.rebackQuote ⟨"usdc", 4⟩ = .ok sold' ∧
        short.exchanged ⟨"usdc", 4⟩ nativeDenom = .ok 93 := by
    decide +kernel
  have seller : short.store.Validated := (run_healthy rfl .initial _).store.validated
  obtain ⟨-, -, sells, -⟩ := quotes_mono seller selling digits bonus bounded
  obtain ⟨minting, bonus, bounded, lower, higher⟩ :
      above.store.backingParams.get? "usdc" = some params ∧
        above.store.params.rebackBonus.DigitsWithin 12 ∧
        above.store.params.rebackBonus.toRat < 1 ∧
        above.mintQuote ⟨"usdc", 100⟩ ⟨nativeDenom, 5000⟩ false = .ok minted ∧
        above.mintQuote ⟨"usdc", 150⟩ ⟨nativeDenom, 5000⟩ false = .ok minted' := by
    decide +kernel
  have minter : above.store.Validated := (run_healthy rfl .initial _).store.validated
  obtain ⟨-, -, -, mints⟩ := quotes_mono minter minting digits bonus bounded
  exact ⟨digits,
    ⟨burner, burning, less, more, burns _ _ _ _ less more (by decide) (by decide)⟩,
    ⟨buyer, buying, fewer, other, buys _ _ _ _ _ fewer other (by decide) total (by decide)⟩,
    ⟨seller, selling, three, four,
      sells _ _ _ _ _ rfl rfl three four (by decide) gross (by decide)⟩,
    minter, minting, lower, higher,
    mints _ _ _ _ _ _ _ rfl rfl (by decide) (by decide) (by decide) (by decide) lower higher
      (by decide)⟩

end Engine

end Stablecoin
