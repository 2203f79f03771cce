import Stablecoin.Proofs.SwapSurplus

/-!
# Trades within surplus and shortfall

Buying backing back is capped by the surplus, and selling backing by what is missing. Both caps are
tested on a value or an amount that was rounded, and the pool moves by another one. In whole
millionths neither rounding can take a trade past its cap: a buyback never uses up more than the
surplus, and a reback fills the pool to less than one native token and one unit above what is
required.
-/
namespace Stablecoin

namespace Engine

variable {e : Engine}

/-! ### The surplus after a trade -/

theorem requiredBacking_nonneg {minted required : Int}
    (needed : e.requiredBacking minted = .ok required) : 0 ≤ required := by
  simp only [requiredBacking, bind_ok, pure_ok] at needed
  obtain ⟨_, -, _, -, rfl⟩ := needed
  exact le_max_right _ _

/-- The surplus is the truncated value of the pools less whatever is required. -/
theorem excessBacking_ok {excess : Int} (priced : e.AllPriced)
    (small : e.backingMillionths < Decimal.coefficientBound) :
    e.excessBacking = .ok excess ↔
      ∃ total required, e.store.backingTotal = some total ∧
        e.requiredBacking total.stableMinted.amount = .ok required ∧
        excess = e.backingMillionths / 1000000 - required := by
  have held := backingValue_eq priced small
  have nonneg := e.backingMillionths_nonneg
  have cast : ((e.backingMillionths / 1000000).toNat : Int) = e.backingMillionths / 1000000 :=
    Int.toNat_of_nonneg (by omega)
  unfold excessBacking
  cases e.store.backingTotal with
  | none => simp
  | some total =>
    simp only [bind_ok, held, pure_ok, Except.ok.injEq, Option.some.injEq, exists_eq_left', cast]
    constructor
    · rintro ⟨required, needed, rfl⟩
      exact ⟨total, required, rfl, needed, rfl⟩
    · rintro ⟨_, required, rfl, needed, rfl⟩
      exact ⟨required, needed, rfl⟩

/-- No surplus is more than the backing is worth. -/
theorem excessBacking_le {excess : Int} (priced : e.AllPriced)
    (small : e.backingMillionths < Decimal.coefficientBound)
    (surplus : e.excessBacking = .ok excess) : excess ≤ e.backingMillionths / 1000000 := by
  obtain ⟨_, required, -, needed, rfl⟩ := (excessBacking_ok priced small).mp surplus
  have nonneg := requiredBacking_nonneg needed
  omega

/-- While no stable units are minted or burned, the requirement stays, and the surplus moves with
the truncated value of the pools. -/
theorem update_excessBacking {denom : Denom} {before after : BackingRecords}
    {change : BackingChange} (named : e.store.PoolsNamed) (loaded : e.backing denom = .ok before)
    (changed : before.Changed change after) (ledger : Ledger) (event : Event)
    (priced : e.AllPriced) (kept : change.stable = 0)
    (small : e.backingMillionths < Decimal.coefficientBound)
    (small' : e.backingMillionths + change.backing * e.priceMillionths denom
      < Decimal.coefficientBound) {excess : Int} (surplus : e.excessBacking = .ok excess) :
    ({ e with ledger, store := e.store.update (.backing after) }.record event).excessBacking
      = .ok (excess + (e.backingMillionths + change.backing * e.priceMillionths denom) / 1000000
          - e.backingMillionths / 1000000) := by
  let final := { e with ledger, store := e.store.update (.backing after) }.record event
  have booked : final.backingMillionths = _ :=
    update_backingMillionths named loaded changed ledger event
  obtain ⟨total, required, recorded, needed, rfl⟩ := (excessBacking_ok priced small).mp surplus
  obtain ⟨recorded', -⟩ := backing_ok loaded
  obtain rfl := Option.some.inj (recorded.symm.trans recorded')
  have counted : after.total.stableMinted.amount = before.total.stableMinted.amount := by
    rw [changed.totalStable, kept, add_zero]
  refine (excessBacking_ok (e := final) (update_allPriced loaded changed ledger event priced)
    (booked ▸ small')).mpr ⟨after.total, required, rfl, ?_, ?_⟩
  · -- The requirement reads the counter and the ratio, and a trade writes neither.
    rw [counted]
    exact needed
  · rw [booked]
    omega

/-! ### Trades in millionths -/

/-- Where the surplus covers what leaves the pools, truncation makes no deficit of the rest. -/
theorem surplus_after_nonneg {excess held taken : Int} (covered : taken ≤ excess * 1000000) :
    0 ≤ excess + (held + -taken) / 1000000 - held / 1000000 := by
  omega

/-- Where what comes in is worth no more than what is missing and one token, truncation adds less
than a unit to that token. -/
theorem surplus_after_lt {price : Decimal} {excess held added unit : Int}
    (whole : price.IsMillionths unit) (filled : added ≤ -excess * 1000000 + unit) :
    ((excess + (held + added) / 1000000 - held / 1000000 : Int) : ℚ) < price.toRat + 1 := by
  generalize moved : excess + (held + added) / 1000000 - held / 1000000 = excess'
  have close : excess' * 1000000 < unit + 1000000 := by omega
  have cast : (excess' : ℚ) * 1000000 < unit + 1000000 := by exact_mod_cast close
  rw [whole]
  linarith

/-- What a buyback takes out of the pool is worth no more than the surplus. -/
theorem bought_within {nativeIn : Coin} {backingPrice nativePrice value : Decimal} {total : Nat}
    {excess unit : Int} (ordinary : backingPrice.OrdinaryPrice)
    (ordinary' : nativePrice.OrdinaryPrice) (whole : backingPrice.IsMillionths unit)
    (small : nativeIn.amount < 10 ^ 12) (valued : nativeIn.worth nativePrice = .ok value)
    (affordable : requireSurplus value excess = .ok ())
    (paid : value.payOutAt backingPrice = .ok total) : total * unit ≤ excess * 1000000 := by
  simp only [requireSurplus, bind_ok, require_ok] at affordable
  obtain ⟨available, counted, within⟩ := affordable
  have enough := Decimal.le_iff_toRat.mp within
  rw [Decimal.ofCounter_toRat counted] at enough
  obtain ⟨-, bounded⟩ := cap_worth_le ordinary' small valued
  have leg := Decimal.payOutAt_le (Coin.worth_nonneg valued ordinary'.positive)
    ordinary.positive paid
  have price := ordinary.below
  rw [whole] at leg price
  refine millionths_le ?_
  push_cast
  linarith

/-- What a reback brings in stays far from the range of decimals. -/
theorem sold_millionths_le {backingIn : Coin} {backingPrice value : Decimal} {unit : Int}
    (ordinary : backingPrice.OrdinaryPrice) (whole : backingPrice.IsMillionths unit)
    (small : backingIn.amount < 10 ^ 12) (valued : backingIn.worth backingPrice = .ok value) :
    backingIn.amount * unit ≤ 10 ^ 21 := by
  obtain ⟨taken, -⟩ := cap_worth_le ordinary small valued
  have cast : ((backingIn.amount * unit : Int) : ℚ) ≤ 10 ^ 21 := by
    rw [whole] at taken
    push_cast
    linarith
  exact_mod_cast cast

/-- What a reback brings in is worth no more than what it mints and one native token, its bonus left
out. -/
theorem sold_within {backingIn : Coin} {backingPrice nativePrice value : Decimal} {minted : Nat}
    {unit unit' : Int} (ordinary : backingPrice.OrdinaryPrice)
    (ordinary' : nativePrice.OrdinaryPrice) (whole : backingPrice.IsMillionths unit)
    (whole' : nativePrice.IsMillionths unit') (small : backingIn.amount < 10 ^ 12)
    (valued : backingIn.worth backingPrice = .ok value)
    (paid : value.payOutAt nativePrice = .ok minted) :
    backingIn.amount * unit ≤ (minted + 1) * unit' := by
  obtain ⟨taken, bounded⟩ := cap_worth_le ordinary small valued
  have positive := ordinary.positive
  have near := (Coin.worth_near valued).ge (by positivity)
  have leg := Decimal.lt_payOutAt (Coin.worth_nonneg valued positive) ordinary'.positive paid
  have price := ordinary'.below
  rw [whole] at near taken
  rw [whole'] at leg price
  refine millionths_le ?_
  push_cast
  linarith

/-- What a reback mints, its bonus left out, is worth no more than the backing that is missing. -/
theorem minted_within {minted : Nat} {nativePrice missing amount available : Decimal}
    {excess unit : Int} (ordinary : nativePrice.OrdinaryPrice)
    (whole : nativePrice.IsMillionths unit) (small : minted * nativePrice.toRat ≤ 10 ^ 16)
    (bounded : excess ≤ 10 ^ 21) (recorded : Decimal.ofCounter (-excess) = .ok missing)
    (divided : missing.div nativePrice = .ok available)
    (counted : Decimal.ofAmount minted = .ok amount) (within : amount ≤ available) :
    minted * unit ≤ -excess * 1000000 := by
  have positive := ordinary.positive
  have below := ordinary.below
  have enough := Decimal.le_iff_toRat.mp within
  rw [Decimal.ofAmount_toRat counted] at enough
  have scaled := mul_le_mul_of_nonneg_right enough positive.le
  have near := Decimal.div_mul_le_abs positive divided
  have gap : missing.toRat = -excess := by
    rw [Decimal.ofCounter_toRat recorded, Int.cast_neg]
  have least : (excess : ℚ) ≤ 10 ^ 21 := by exact_mod_cast bounded
  have value : (minted : ℚ) * nativePrice.toRat < -excess + 1 / 10 ^ 6 := by
    rcases le_total missing.toRat (10 ^ 21) with usual | huge
    · -- The quotient is off by far less than a millionth.
      have size : |missing.toRat| ≤ 10 ^ 21 := abs_le.mpr ⟨by linarith, usual⟩
      linarith
    · -- So much is missing that no trade of this size can reach it.
      linarith
  rw [whole] at value
  refine millionths_le ?_
  push_cast
  linarith

/-! ### Transactions -/

section Transactions

variable (named : e.store.PoolsNamed) (ordinary : e.OrdinaryPools) {sender : Principal}
include named ordinary

theorem planBuyback_keepsSurplus {plan : Plan} (ledger : Ledger) (event : Event)
    {r : BuybackRequest} (small : r.nativeIn.amount < 10 ^ 12)
    (planned : e.planBuyback sender r = .ok plan) :
    ∃ excess, ({ e with ledger, store := e.store.update plan.update }.record event).excessBacking
      = .ok excess ∧ 0 ≤ excess := by
  obtain ⟨q, before, after, quoted, -, loaded, changed, -, written, -, -⟩ := planBuyback_ok planned
  obtain ⟨-, _, backingPrice, nativePrice, excess, value, total, _, fee, -, priced, priced',
    surplus, valued, affordable, paid, -, -, -, -, covered, rfl⟩ := buybackQuote_ok quoted
  obtain ⟨usual, whole⟩ := ordinary.priced.backingPrice named loaded priced
  have usual' := ordinary.nativePrice nativePrice (price_ok priced').1
  have held := ordinary.backingMillionths_le
  have taken := bought_within usual usual' whole small valued affordable paid
  -- The fee comes out of what is bought, so payout and fee are all that leaves the pool.
  have left : -(((total - fee.amount : Nat) : Int) + fee.amount)
      * e.priceMillionths r.backingOutMin.denom
        = -(total * e.priceMillionths r.backingOutMin.denom) := by
    rw [neg_mul]
    congr 2
    omega
  have out : 0 ≤ (total * e.priceMillionths r.backingOutMin.denom : Int) := by positivity
  rw [written]
  refine ⟨_, update_excessBacking named loaded changed ledger event ordinary.priced rfl ?_ ?_
    surplus, ?_⟩
  · simp only [Decimal.coefficientBound]
    omega
  · simp only [Decimal.coefficientBound, left]
    omega
  · rw [left]
    exact surplus_after_nonneg taken

theorem planReback_fillsShortfall {plan : Plan} (ledger : Ledger) (event : Event)
    {r : RebackRequest} (small : r.backingIn.amount < 10 ^ 12)
    (planned : e.planReback sender r = .ok plan) :
    ∃ (excess : Int) (nativePrice : Decimal), e.price nativeDenom = .ok nativePrice ∧
      ({ e with ledger, store := e.store.update plan.update }.record event).excessBacking
        = .ok excess ∧ (excess : ℚ) < nativePrice.toRat + 1 := by
  obtain ⟨-, q, before, after, quoted, -, loaded, changed, -, written, -, -⟩ :=
    planReback_ok planned
  obtain ⟨_, backingPrice, nativePrice, _, _, available, value, minted, _, _, amount, -, priced,
    priced', -, -, -, short, valued, paid, -, -, counted, within, -, rfl⟩ := rebackQuote_ok quoted
  simp only [availableReback, bind_ok] at short
  obtain ⟨excess, surplus, missing, recorded, divided⟩ := short
  obtain ⟨usual, whole⟩ := ordinary.priced.backingPrice named loaded priced
  have reported := (price_ok priced').1
  have usual' := ordinary.nativePrice nativePrice reported
  obtain ⟨_, known, -, whole', -⟩ := Priced.price ⟨nativePrice, reported, usual'⟩
  cases known.symm.trans priced'
  have held := ordinary.backingMillionths_le
  have inRange : e.backingMillionths < Decimal.coefficientBound := by
    simp only [Decimal.coefficientBound]
    omega
  have spare := excessBacking_le ordinary.priced inRange surplus
  obtain ⟨-, bounded⟩ := cap_worth_le usual small valued
  have leg := Decimal.payOutAt_le (Coin.worth_nonneg valued usual.positive) usual'.positive paid
  have price := usual'.below
  have filled :=
    minted_within usual' whole' (by linarith) (by omega) recorded divided counted within
  have sold := sold_within usual usual' whole whole' small valued paid
  rw [add_mul, one_mul] at sold
  have most := sold_millionths_le usual whole small valued
  rw [written]
  refine ⟨_, nativePrice, priced', update_excessBacking named loaded changed ledger event
    ordinary.priced rfl inRange ?_ surplus, ?_⟩
  · simp only [Decimal.coefficientBound]
    omega
  · exact surplus_after_lt whole' (sold.trans (by omega))

/-- At ordinary pools and prices, no buyback of an ordinary size makes a deficit, and no reback
leaves as much as one native token's worth and one unit above what is required. -/
theorem transact_tradesWithinSurplus :
    (∀ (r : BuybackRequest) (response : Response), r.nativeIn.amount < 10 ^ 12 →
      (e.transact sender (.buyback r)).result = .ok response →
        ∃ excess, (e.transact sender (.buyback r)).engine.excessBacking = .ok excess ∧
          0 ≤ excess) ∧
    ∀ (r : RebackRequest) (response : Response), r.backingIn.amount < 10 ^ 12 →
      (e.transact sender (.reback r)).result = .ok response →
        ∃ (excess : Int) (nativePrice : Decimal), e.price nativeDenom = .ok nativePrice ∧
          (e.transact sender (.reback r)).engine.excessBacking = .ok excess ∧
          (excess : ℚ) < nativePrice.toRat + 1 := by
  constructor
  · intro r response small returned
    obtain ⟨plan, ledger, planned, -, -, carried⟩ := transact_ok returned
    rw [carried]
    exact planBuyback_keepsSurplus named ordinary ledger plan.event small planned
  · intro r response small returned
    obtain ⟨plan, ledger, planned, -, -, carried⟩ := transact_ok returned
    rw [carried]
    exact planReback_fillsShortfall named ordinary ledger plan.event small planned

end Transactions

/-- A surplus of 1030 is bought up to the last two units, and of a shortfall of 270 all but one is
filled. -/
theorem transact_tradesWithinSurplus_swapDesk :
    let trader : Principal := ⟨[1], by decide⟩
    let rich := swapDesk trader (percent 95) (percent 200)
    let short := swapDesk trader (percent 95) (percent 70)
    let buyback : BuybackRequest := ⟨none, ⟨nativeDenom, 34333⟩, ⟨"usdc", 0⟩⟩
    let reback : RebackRequest := ⟨none, ⟨"usdc", 385⟩, ⟨nativeDenom, 0⟩⟩
    let bought : BuybackQuote := ⟨⟨"usdc", 509⟩, ⟨"usdc", 5⟩⟩
    let sold : RebackQuote := ⟨⟨nativeDenom, 8960⟩, ⟨nativeDenom, 90⟩⟩
    ((rich.transact trader (.buyback buyback)).result = .ok (.buyback bought) ∧
        rich.excessBacking = .ok 1030 ∧
        (rich.transact trader (.buyback buyback)).engine.excessBacking = .ok 2 ∧
        (0 : Int) ≤ 2) ∧
      ((short.transact trader (.reback reback)).result = .ok (.reback sold) ∧
        short.excessBacking = .ok (-270) ∧
        (short.transact trader (.reback reback)).engine.excessBacking = .ok (-1) ∧
        ((-1 : Int) : ℚ) < (percent 3).toRat + 1) := by
  intro trader rich short buyback reback bought sold
  have named : rich.store.PoolsNamed := (run_sound (fresh_sound _ _) _).keyed.poolsNamed
  have named' : short.store.PoolsNamed := (run_sound (fresh_sound _ _) _).keyed.poolsNamed
  obtain ⟨ordinary, start, first, finish⟩ : rich.OrdinaryPools ∧ rich.excessBacking = .ok 1030 ∧
      (rich.transact trader (.buyback buyback)).result = .ok (.buyback bought) ∧
      (rich.transact trader (.buyback buyback)).engine.excessBacking = .ok 2 := by
    decide +kernel
  obtain ⟨ordinary', start', price, second, finish'⟩ : short.OrdinaryPools ∧
      short.excessBacking = .ok (-270) ∧ short.price nativeDenom = .ok (percent 3) ∧
      (short.transact trader (.reback reback)).result = .ok (.reback sold) ∧
      (short.transact trader (.reback reback)).engine.excessBacking = .ok (-1) := by
    decide +kernel
  obtain ⟨_, after, kept⟩ := (transact_tradesWithinSurplus named ordinary).1 buyback _
    (by decide : 34333 < 10 ^ 12) first
  obtain ⟨_, _, known, after', kept'⟩ := (transact_tradesWithinSurplus named' ordinary').2 reback _
    (by decide : 385 < 10 ^ 12) second
  cases after.symm.trans finish
  cases after'.symm.trans finish'
  cases known.symm.trans price
  exact ⟨⟨first, start, finish, kept⟩, ⟨second, start', finish', kept'⟩⟩

end Engine

end Stablecoin
