import Stablecoin.Proofs.PlanSpec
import Stablecoin.Proofs.Steps
import Stablecoin.Proofs.Valuation

/-!
# No swap gives value away

At the prices of the moment, what a swap pays is worth no more than what it takes, up to the
rounding of decimals. The directed roundings of amounts all go against the user: what is paid in is
rounded up and what is paid out is truncated.
-/
namespace Stablecoin

namespace Engine

variable {e : Engine}

/-- A fractional mix has a share strictly between zero and one. -/
theorem mix_fractional {ratio share : Decimal} {forced : Bool}
    (mixed : Mix.of ratio forced = .fractional share) : 0 < share.toRat ∧ share.toRat < 1 := by
  unfold Mix.of at mixed
  split at mixed
  next => cases mixed
  next below =>
    split at mixed
    next => cases mixed
    next above =>
      cases mixed
      rw [Decimal.le_iff_toRat, Decimal.toRat_one] at below
      rw [Decimal.le_iff_toRat, Decimal.toRat_zero] at above
      exact ⟨by linarith, by linarith [not_le.mp fun one => below (.inr one)]⟩

/-! ### Minting -/

/-- A part of the value minted is covered by what is taken for it, up to rounding. -/
def Covered (part amount price : ℚ) : Prop :=
  part ≤ amount * price + (2 + 3 * (part + amount * price) + price) / 10 ^ 28

section Legs

variable {price share value : Decimal} (positive : 0 < price.toRat) (above : 0 < share.toRat)
  (below : share.toRat < 1)
include positive above below

/-- The leg whose cap sets the value takes the whole cap. -/
theorem bindingLeg_covered {cap : Coin} {capValue : Decimal}
    (valued : cap.worth price = .ok capValue) (divided : capValue.div share = .ok value) :
    Covered (value.toRat * share.toRat) cap.amount price.toRat := by
  have near := (Coin.worth_near valued).le (by positivity)
  have nonneg := Coin.worth_nonneg valued positive
  have quotient := Decimal.div_mul_le nonneg above divided
  have part : 0 ≤ value.toRat * share.toRat :=
    mul_nonneg (Decimal.div_nonneg divided nonneg above.le) above.le
  unfold Covered
  linarith

/-- The other leg takes what its share of the value comes to. -/
theorem paidLeg_covered {part : Decimal} {amount : Nat} (nonneg : 0 ≤ value.toRat)
    (multiplied : value.mul share = .ok part) (paid : part.payInAt price = .ok amount) :
    Covered (value.toRat * share.toRat) amount price.toRat := by
  have exact : 0 ≤ value.toRat * share.toRat := by positivity
  have low := (Decimal.mul_near multiplied).ge exact
  have high := (Decimal.mul_near multiplied).le exact
  have rounded := Decimal.le_payInAt (Decimal.mul_nonneg multiplied nonneg above.le) positive paid
  have taken : 0 ≤ amount * price.toRat := by positivity
  unfold Covered
  linarith

/-- The other leg takes its whole cap only if its cap alone would allow more. -/
theorem cappedLeg_covered {cap : Coin} {capValue limit : Decimal}
    (smaller : value.toRat ≤ limit.toRat) (valued : cap.worth price = .ok capValue)
    (divided : capValue.div share = .ok limit)
    (nonneg : 0 ≤ value.toRat) : Covered (value.toRat * share.toRat) cap.amount price.toRat := by
  have near := (Coin.worth_near valued).le (by positivity)
  have quotient := Decimal.div_mul_le (Coin.worth_nonneg valued positive) above divided
  have within := mul_le_mul_of_nonneg_right smaller above.le
  have part : 0 ≤ value.toRat * share.toRat := by positivity
  have taken : 0 ≤ cap.amount * price.toRat := by positivity
  unfold Covered
  linarith

/-- Held to a cap or not, the other leg covers its share. -/
theorem otherLeg_covered {cap : Coin} {capValue limit part : Decimal} {amount : Nat}
    (valued : cap.worth price = .ok capValue) (divided : capValue.div share = .ok limit)
    (nonneg : 0 ≤ value.toRat) (multiplied : value.mul share = .ok part)
    (paid : part.payInAt price = .ok amount)
    (smaller : cap.isPositive = true → value.toRat ≤ limit.toRat) :
    Covered (value.toRat * share.toRat) (capped amount cap : Nat) price.toRat := by
  unfold capped
  split
  next open' =>
    rcases Nat.le_total amount cap.amount with within | beyond
    · rw [Nat.min_eq_left within]
      exact paidLeg_covered positive above below nonneg multiplied paid
    · -- The cap cuts the leg short, but the cap alone would have allowed the value.
      rw [Nat.min_eq_right beyond]
      exact cappedLeg_covered positive above below (smaller open') valued divided nonneg
  next => exact paidLeg_covered positive above below nonneg multiplied paid

end Legs

variable {backingPrice nativePrice : Decimal} (positive : 0 < backingPrice.toRat)
  (positive' : 0 < nativePrice.toRat)
include positive positive'

/-- A fractional mint is worth no more than the amounts that it takes. -/
theorem fractionalMint_le {share : Decimal} (above : 0 < share.toRat) (below : share.toRat < 1)
    {backingMax nativeMax : Coin} {backingMaxValue nativeMaxValue value : Decimal}
    {backingIn nativeIn : Nat} (valued : backingMax.worth backingPrice = .ok backingMaxValue)
    (valued' : nativeMax.worth nativePrice = .ok nativeMaxValue)
    (legs : fractionalMint share backingPrice nativePrice backingMax nativeMax backingMaxValue
      nativeMaxValue = .ok (value, backingIn, nativeIn)) :
    0 ≤ value.toRat ∧ ∃ rest : ℚ, share.toRat + rest = 1 ∧
      Covered (value.toRat * share.toRat) backingIn backingPrice.toRat ∧
      Covered (value.toRat * rest) nativeIn nativePrice.toRat := by
  simp only [fractionalMint, bind_ok, Decimal.subTrusted_ok] at legs
  obtain ⟨byBacking, backed, rest, left, byNative, limited, legs⟩ := legs
  have restIs := Decimal.one_sub?_toRat above.le below.le left
  have above' : 0 < rest.toRat := by linarith
  have below' : rest.toRat < 1 := by linarith
  have backedNonneg := Decimal.div_nonneg backed (Coin.worth_nonneg valued positive) above.le
  have limitedNonneg := Decimal.div_nonneg limited (Coin.worth_nonneg valued' positive') above'.le
  split at legs
  next binds =>
    -- Backing sets the value: either there is no cap on the native token or it allows more.
    simp only [bind_ok, left, Decimal.subTrusted_ok, Option.some.injEq, pure_ok,
      Prod.mk.injEq] at legs
    obtain ⟨_, rfl, part, multiplied, amount, paid, rfl, rfl, rfl⟩ := legs
    refine ⟨backedNonneg, rest.toRat, by linarith,
      bindingLeg_covered positive above below valued backed,
      otherLeg_covered positive' above' below' valued' limited backedNonneg multiplied paid ?_⟩
    intro capped
    rcases binds.2 with open' | smaller
    · simp [Coin.isZero, Coin.isPositive] at open' capped
      omega
    · exact Decimal.le_iff_toRat.mp smaller
  next other =>
    -- The native token sets the value: a cap on backing would otherwise have been the smaller.
    simp only [bind_ok, pure_ok, Prod.mk.injEq] at legs
    obtain ⟨part, multiplied, amount, paid, rfl, rfl, rfl⟩ := legs
    refine ⟨limitedNonneg, rest.toRat, by linarith,
      otherLeg_covered positive above below valued backed limitedNonneg multiplied paid ?_,
      bindingLeg_covered positive' above' below' valued' limited⟩
    intro capped
    by_contra larger
    exact other ⟨capped, .inr (Decimal.le_iff_toRat.mpr (not_le.mp larger).le)⟩

/-- Within its caps a mint is worth no more than the amounts that it takes. -/
theorem mintWithin_le {ratio : Decimal} {forced : Bool} {backingMax nativeMax : Coin}
    {backingMaxValue nativeMaxValue value : Decimal} {backingIn nativeIn : Nat}
    (valued : backingMax.worth backingPrice = .ok backingMaxValue)
    (valued' : nativeMax.worth nativePrice = .ok nativeMaxValue)
    (legs : mintWithin (.of ratio forced) backingPrice nativePrice backingMax nativeMax
      backingMaxValue nativeMaxValue = .ok (value, backingIn, nativeIn)) :
    0 ≤ value.toRat ∧
      value.toRat ≤ backingIn * backingPrice.toRat + nativeIn * nativePrice.toRat
        + 10 * (1 + (backingIn * backingPrice.toRat + nativeIn * nativePrice.toRat)
          + backingPrice.toRat + nativePrice.toRat) / 10 ^ 28 := by
  have backing : 0 ≤ backingIn * backingPrice.toRat := by positivity
  have native : 0 ≤ nativeIn * nativePrice.toRat := by positivity
  cases mixed : Mix.of ratio forced with
  | fullBacking =>
    rw [mixed] at legs
    simp only [mintWithin, pure_ok, Prod.mk.injEq] at legs
    obtain ⟨rfl, rfl, rfl⟩ := legs
    have near := (Coin.worth_near valued).le backing
    exact ⟨Coin.worth_nonneg valued positive, by linarith⟩
  | algorithmic =>
    rw [mixed] at legs
    simp only [mintWithin, pure_ok, Prod.mk.injEq] at legs
    obtain ⟨rfl, rfl, rfl⟩ := legs
    have near := (Coin.worth_near valued').le native
    exact ⟨Coin.worth_nonneg valued' positive', by linarith⟩
  | fractional share =>
    rw [mixed] at legs
    obtain ⟨above, below⟩ := mix_fractional mixed
    obtain ⟨nonneg, rest, whole, covered, covered'⟩ :=
      fractionalMint_le positive positive' above below valued valued' legs
    -- The two parts make up the value, so what covers each of them covers it.
    have parts : value.toRat * share.toRat + value.toRat * rest = value.toRat := by
      rw [← mul_add, whole, mul_one]
    unfold Covered at covered covered'
    exact ⟨nonneg, by linarith⟩

/-! ### Burning -/

/-- What a value is paid out in is worth no more than it. -/
theorem burnOut_le {ratio value : Decimal} {backingOut nativeOut : Nat} (nonneg : 0 ≤ value.toRat)
    (legs : burnOut (.of ratio false) backingPrice nativePrice value
      = .ok (backingOut, nativeOut)) :
    backingOut * backingPrice.toRat + nativeOut * nativePrice.toRat
      ≤ value.toRat + 10 * (1 + value.toRat + backingPrice.toRat + nativePrice.toRat)
        / 10 ^ 28 := by
  cases mixed : Mix.of ratio false with
  | fullBacking =>
    rw [mixed] at legs
    simp only [burnOut, bind_ok, pure_ok, Prod.mk.injEq] at legs
    obtain ⟨amount, paid, rfl, rfl⟩ := legs
    have leg := Decimal.payOutAt_le nonneg positive paid
    rw [Nat.cast_zero, zero_mul]
    linarith
  | algorithmic =>
    rw [mixed] at legs
    simp only [burnOut, bind_ok, pure_ok, Prod.mk.injEq] at legs
    obtain ⟨amount, paid, rfl, rfl⟩ := legs
    have leg := Decimal.payOutAt_le nonneg positive' paid
    rw [Nat.cast_zero, zero_mul]
    linarith
  | fractional share =>
    rw [mixed] at legs
    obtain ⟨above, below⟩ := mix_fractional mixed
    simp only [burnOut, bind_ok, Decimal.subTrusted_ok, pure_ok, Prod.mk.injEq] at legs
    obtain ⟨backingValue, backed, amount, paid, rest, left, nativeValue, other, amount', paid', rfl,
      rfl⟩ := legs
    have restIs := Decimal.one_sub?_toRat above.le below.le left
    have above' : 0 ≤ rest.toRat := by linarith
    have part : 0 ≤ value.toRat * share.toRat := by positivity
    have part' : 0 ≤ value.toRat * rest.toRat := by positivity
    have near := (Decimal.mul_near backed).le part
    have near' := (Decimal.mul_near other).le part'
    have leg := Decimal.payOutAt_le (Decimal.mul_nonneg backed nonneg above.le) positive paid
    have leg' := Decimal.payOutAt_le (Decimal.mul_nonneg other nonneg above') positive' paid'
    -- Both parts are rounded down to whole coins, and together they are the value.
    have parts : value.toRat * share.toRat + value.toRat * rest.toRat = value.toRat := by
      rw [← mul_add, restIs, add_sub_cancel, mul_one]
    linarith

/-! ### Transactions -/

omit positive positive'

/-- What rounding in decimals may add to a value at given prices. -/
def roundingSlack (value backingPrice nativePrice : ℚ) : ℚ :=
  (1 + value + backingPrice + nativePrice) / 10 ^ 26

/-- What holds at the reported prices of a backing asset and of the native token. -/
def AtPrices (e : Engine) (backing : Denom) (holds : Decimal → Decimal → Prop) : Prop :=
  ∃ backingPrice nativePrice, e.prices.get? backing = some backingPrice ∧
    e.prices.get? nativeDenom = some nativePrice ∧ holds backingPrice nativePrice

/-- What is paid is worth no more than what is taken, up to rounding. -/
def PaysAtMost (paid taken : ℚ) (backingPrice nativePrice : Decimal) : Prop :=
  paid ≤ taken + roundingSlack taken backingPrice.toRat nativePrice.toRat

/-- What a swap pays, fees included, is worth no more than what it takes, the stable unit being
worth one. A sale of backing mints the worth of the backing and a bonus, which is left out. -/
def KeepsValue (e : Engine) : Request → Response → Prop
  | .mint r, .mint q => e.AtPrices r.backingInMax.denom fun backingPrice nativePrice =>
      PaysAtMost (q.mintOut.amount + q.mintFee.amount)
        (q.backingIn.amount * backingPrice.toRat + q.nativeIn.amount * nativePrice.toRat)
        backingPrice nativePrice
  | .burn r, .burn q => e.AtPrices r.backingOutMin.denom fun backingPrice nativePrice =>
      PaysAtMost
        (q.backingOut.amount * backingPrice.toRat + q.nativeOut.amount * nativePrice.toRat)
        (r.burnIn.amount - q.burnFee.amount) backingPrice nativePrice
  | .buyback r, .buyback q => e.AtPrices r.backingOutMin.denom fun backingPrice nativePrice =>
      PaysAtMost ((q.backingOut.amount + q.buybackFee.amount) * backingPrice.toRat)
        (r.nativeIn.amount * nativePrice.toRat) backingPrice nativePrice
  | .reback r, .reback q => e.AtPrices r.backingIn.denom fun backingPrice nativePrice =>
      ∃ gross bonus,
        (do (← r.backingIn.worth backingPrice).payOutAt nativePrice) = .ok gross ∧
        (Coin.mk nativeDenom gross).fee (some e.store.params.rebackBonus) = .ok bonus ∧
        q.nativeOut.amount + q.rebackFee.amount = gross + bonus.amount ∧
        PaysAtMost ((q.nativeOut.amount + q.rebackFee.amount - bonus.amount) * nativePrice.toRat)
          (r.backingIn.amount * backingPrice.toRat) backingPrice nativePrice
  | .mint _, _ | .burn _, _ | .buyback _, _ | .reback _, _ => False
  | _, _ => True

theorem mintQuote_keepsValue {r : MintRequest} {q : MintQuote}
    (quoted : e.mintQuote r.backingInMax r.nativeInMax r.fullBacking = .ok q) :
    e.KeepsValue (.mint r) (.mint q) := by
  obtain ⟨-, -, _, backingPrice, nativePrice, _, _, value, backingIn, nativeIn, total, _, _, _, fee,
    -, priced, priced', valued, valued', legs, paid, -, -, -, -, -, -, covered, rfl⟩ :=
    mintQuote_ok quoted
  obtain ⟨reported, positive⟩ := price_ok priced
  obtain ⟨reported', positive'⟩ := price_ok priced'
  refine ⟨backingPrice, nativePrice, reported, reported', ?_⟩
  obtain ⟨nonneg, within⟩ := mintWithin_le positive positive' valued valued' legs
  have peg : pegTarget.toRat = 1 := Decimal.toRat_one
  have minted := Decimal.payOutAt_le nonneg (peg ▸ one_pos) paid
  have backing : 0 ≤ backingIn * backingPrice.toRat := by positivity
  have native : 0 ≤ nativeIn * nativePrice.toRat := by positivity
  rw [peg, mul_one] at minted
  dsimp only [PaysAtMost, roundingSlack]
  -- The fee comes out of what is minted, so payout and fee are the whole mint.
  rw [Nat.cast_sub covered, sub_add_cancel]
  linarith

theorem burnQuote_keepsValue {r : BurnRequest} {q : BurnQuote}
    (quoted : e.burnQuote r.burnIn r.backingOutMin.denom = .ok q) :
    e.KeepsValue (.burn r) (.burn q) := by
  obtain ⟨-, -, _, backingPrice, nativePrice, fee, value, backingOut, nativeOut, _, -, priced,
    priced', -, covered, valued, legs, -, -, -, rfl⟩ := burnQuote_ok quoted
  obtain ⟨reported, positive⟩ := price_ok priced
  obtain ⟨reported', positive'⟩ := price_ok priced'
  refine ⟨backingPrice, nativePrice, reported, reported', ?_⟩
  have peg : pegTarget.toRat = 1 := Decimal.toRat_one
  have near := (Coin.worth_near valued).le (by rw [peg]; positivity)
  have within := burnOut_le positive positive' (Coin.worth_nonneg valued (peg ▸ one_pos)) legs
  have taken : (0 : ℚ) ≤ ((r.burnIn.amount - fee.amount : Nat) : ℚ) := by positivity
  rw [peg, mul_one] at near
  dsimp only [PaysAtMost, roundingSlack]
  rw [Nat.cast_sub covered] at near taken
  linarith

theorem buybackQuote_keepsValue {r : BuybackRequest} {q : BuybackQuote}
    (quoted : e.buybackQuote r.nativeIn r.backingOutMin.denom = .ok q) :
    e.KeepsValue (.buyback r) (.buyback q) := by
  obtain ⟨-, _, backingPrice, nativePrice, _, value, total, _, fee, -, priced, priced', -, valued,
    -, paid, -, -, -, -, covered, rfl⟩ := buybackQuote_ok quoted
  obtain ⟨reported, positive⟩ := price_ok priced
  obtain ⟨reported', positive'⟩ := price_ok priced'
  refine ⟨backingPrice, nativePrice, reported, reported', ?_⟩
  have near := (Coin.worth_near valued).le (by positivity)
  have within := Decimal.payOutAt_le (Coin.worth_nonneg valued positive') positive paid
  have taken : 0 ≤ r.nativeIn.amount * nativePrice.toRat := by positivity
  dsimp only [PaysAtMost, roundingSlack]
  rw [Nat.cast_sub covered, sub_add_cancel]
  linarith

theorem rebackQuote_keepsValue {r : RebackRequest} {q : RebackQuote}
    (quoted : e.rebackQuote r.backingIn = .ok q) : e.KeepsValue (.reback r) (.reback q) := by
  obtain ⟨_, backingPrice, nativePrice, _, _, _, value, gross, bonus, fee, _, -, priced, priced', -,
    -, -, -, valued, paid, rewarded, -, -, -, covered, rfl⟩ := rebackQuote_ok quoted
  obtain ⟨reported, positive⟩ := price_ok priced
  obtain ⟨reported', positive'⟩ := price_ok priced'
  refine ⟨backingPrice, nativePrice, reported, reported', gross, bonus,
    bind_ok.mpr ⟨value, valued, paid⟩, rewarded, Nat.sub_add_cancel covered, ?_⟩
  have near := (Coin.worth_near valued).le (by positivity)
  have within := Decimal.payOutAt_le (Coin.worth_nonneg valued positive) positive' paid
  have taken : 0 ≤ r.backingIn.amount * backingPrice.toRat := by positivity
  dsimp only [PaysAtMost, roundingSlack]
  -- Payout and fee are the gross mint and the bonus, which is left out.
  rw [Nat.cast_sub covered, sub_add_cancel, Nat.cast_add, add_sub_cancel_right]
  linarith

/-- No swap that succeeds pays more than it takes, at the prices reported when it was made. -/
theorem transact_keepsValue {sender : Principal} {request : Request} {response : Response}
    (returned : (e.transact sender request).result = .ok response) :
    e.KeepsValue request response := by
  obtain ⟨plan, _, planned, -, rfl, -⟩ := transact_ok returned
  cases request with
  | mint r =>
    obtain ⟨-, q, _, _, quoted, -, -, -, -, -, -, answered⟩ := planMint_ok planned
    rw [answered]
    exact mintQuote_keepsValue quoted
  | burn r =>
    obtain ⟨-, q, _, _, quoted, -, -, -, -, -, -, -, -, answered⟩ := planBurn_ok planned
    rw [answered]
    exact burnQuote_keepsValue quoted
  | buyback r =>
    obtain ⟨q, _, _, quoted, -, -, -, -, -, -, answered⟩ := planBuyback_ok planned
    rw [answered]
    exact buybackQuote_keepsValue quoted
  | reback r =>
    obtain ⟨-, q, _, _, quoted, -, -, -, -, -, -, answered⟩ := planReback_ok planned
    rw [answered]
    exact rebackQuote_keepsValue quoted
  | borrow | repay | deposit | redeem | liquidate => trivial

/-- An engine whose backing ratio is a half, after a mint and then a change of two prices. -/
def swapDesk (trader : Principal) (stablePrice dollarPrice : Decimal) : Engine :=
  (fresh { Params.initial with backingRatio := percent 50 } .initial).run
    [.registerBacking
        { denom := "usdc"
          enabled := true
          maxBacking := none
          maxStableMint := none
          mintFee := some (percent 1)
          burnFee := some (percent 1)
          buybackFee := some (percent 1)
          rebackFee := some (percent 1) },
      .setRate "usdc" (percent 97), .setRate nativeDenom (percent 3),
      .setRate stableDenom (percent 105), .fund (.user trader) ⟨"usdc", 100000⟩,
      .fund (.user trader) ⟨nativeDenom, 100000⟩,
      .transact trader
        (.mint ⟨none, ⟨stableDenom, 1⟩, ⟨"usdc", 1000⟩, ⟨nativeDenom, 0⟩, false⟩),
      .setRate stableDenom stablePrice, .setRate "usdc" dollarPrice]

/-- Each of the four swaps, none at a round price, keeps value. -/
theorem transact_keepsValue_swapDesk :
    let trader : Principal := ⟨[1], by decide⟩
    let above := swapDesk trader (percent 105) (percent 97)
    let below := swapDesk trader (percent 95) (percent 97)
    let rich := swapDesk trader (percent 95) (percent 200)
    let short := swapDesk trader (percent 95) (percent 70)
    let mint : MintRequest := ⟨none, ⟨stableDenom, 1⟩, ⟨"usdc", 1000⟩, ⟨nativeDenom, 0⟩, false⟩
    let burn : BurnRequest := ⟨none, ⟨stableDenom, 500⟩, ⟨"usdc", 0⟩, ⟨nativeDenom, 0⟩⟩
    let buyback : BuybackRequest := ⟨none, ⟨nativeDenom, 1000⟩, ⟨"usdc", 0⟩⟩
    let reback : RebackRequest := ⟨none, ⟨"usdc", 101⟩, ⟨nativeDenom, 0⟩⟩
    let minted : MintQuote :=
      ⟨⟨"usdc", 1000⟩, ⟨nativeDenom, 32334⟩, ⟨stableDenom, 1921⟩, ⟨stableDenom, 19⟩⟩
    let burned : BurnQuote := ⟨⟨"usdc", 255⟩, ⟨nativeDenom, 8250⟩, ⟨stableDenom, 5⟩⟩
    let bought : BuybackQuote := ⟨⟨"usdc", 15⟩, ⟨"usdc", 0⟩⟩
    let sold : RebackQuote := ⟨⟨nativeDenom, 2350⟩, ⟨nativeDenom, 24⟩⟩
    ((above.transact trader (.mint mint)).result = .ok (.mint minted) ∧
        above.KeepsValue (.mint mint) (.mint minted)) ∧
      ((below.transact trader (.burn burn)).result = .ok (.burn burned) ∧
        below.KeepsValue (.burn burn) (.burn burned)) ∧
      ((rich.transact trader (.buyback buyback)).result = .ok (.buyback bought) ∧
        rich.KeepsValue (.buyback buyback) (.buyback bought)) ∧
      ((short.transact trader (.reback reback)).result = .ok (.reback sold) ∧
        short.KeepsValue (.reback reback) (.reback sold)) := by
  intro trader above below rich short mint burn buyback reback minted burned bought sold
  have first : (above.transact trader (.mint mint)).result = .ok (.mint minted) := by
    decide +kernel
  have second : (below.transact trader (.burn burn)).result = .ok (.burn burned) := by
    decide +kernel
  have third : (rich.transact trader (.buyback buyback)).result = .ok (.buyback bought) := by
    decide +kernel
  have fourth : (short.transact trader (.reback reback)).result = .ok (.reback sold) := by
    decide +kernel
  exact ⟨⟨first, transact_keepsValue first⟩, ⟨second, transact_keepsValue second⟩,
    ⟨third, transact_keepsValue third⟩, ⟨fourth, transact_keepsValue fourth⟩⟩

end Engine

end Stablecoin
