import Stablecoin.Proofs.Surplus
import Stablecoin.Proofs.SwapValue

/-!
# Swaps create no deficit

What a mint by swap adds to the requirement it brings in as backing, and what a burn pays out it
takes off the requirement, whichever leg binds and whatever the mix. So neither makes a deficit, nor
deepens one, by more than the unit that the two roundings of the surplus can cost.
-/
namespace Stablecoin

namespace Mix

variable {ratio share : Decimal} {forced : Bool}

theorem of_eq_fractional (mixed : Mix.of ratio forced = .fractional share) : share = ratio := by
  unfold Mix.of at mixed
  split at mixed
  next => cases mixed
  next =>
    split at mixed
    next => cases mixed
    next => exact (Mix.fractional.inj mixed).symm

theorem of_eq_algorithmic (mixed : Mix.of ratio forced = .algorithmic) : ratio.toRat ≤ 0 := by
  unfold Mix.of at mixed
  split at mixed
  next => cases mixed
  next =>
    split at mixed
    next none => simpa using Decimal.le_iff_toRat.mp none
    next => cases mixed

theorem of_eq_fullBacking (mixed : Mix.of ratio false = .fullBacking) : 1 ≤ ratio.toRat := by
  unfold Mix.of at mixed
  split at mixed
  next full => simpa using Decimal.le_iff_toRat.mp (full.resolve_left Bool.false_ne_true)
  next => split at mixed <;> cases mixed

end Mix

/-- A mint or a burn by swap of amounts below `10 ^ 12`. -/
def Request.IsSmallSwap : Request → Prop
  | .mint r => r.backingInMax.amount < 10 ^ 12 ∧ r.nativeInMax.amount < 10 ^ 12
  | .burn r => r.burnIn.amount < 10 ^ 12
  | _ => False

/-- A share of six digits, and what it leaves of one, are a millionth at least. -/
theorem Decimal.SixDigits.share_bounds {share : Decimal} (digits : share.SixDigits)
    (above : 0 < share.toRat) (below : share.toRat < 1) :
    1 / 10 ^ 6 ≤ share.toRat ∧ 1 / 10 ^ 6 ≤ 1 - share.toRat := by
  unfold SixDigits IsMillionths at digits
  have low : 1 ≤ share.millionths := by
    rw [digits, div_pos_iff_of_pos_right (by positivity)] at above
    exact_mod_cast above
  have high : share.millionths + 1 ≤ 1000000 := by
    rw [digits, div_lt_one (by positivity)] at below
    have cast : (share.millionths : ℚ) < (1000000 : Int) := below.trans_eq (by norm_num)
    exact_mod_cast cast
  have low' : (1 : ℚ) ≤ share.millionths := by exact_mod_cast low
  have high' : (share.millionths + 1 : ℚ) ≤ 1000000 := by exact_mod_cast high
  rw [digits]
  constructor <;> linarith

namespace Engine

variable {e : Engine}

/-! ### The size of a mint -/

/-- A cap below `10 ^ 12` is worth hardly more than `10 ^ 15`. -/
theorem cap_worth_le {cap : Coin} {price value : Decimal} (ordinary : price.OrdinaryPrice)
    (small : cap.amount < 10 ^ 12) (valued : cap.worth price = .ok value) :
    cap.amount * price.toRat ≤ 10 ^ 15 ∧ value.toRat ≤ 10 ^ 15 + 1 := by
  have positive := ordinary.positive
  have amount : (cap.amount : ℚ) ≤ 10 ^ 12 := by exact_mod_cast small.le
  have exact' : cap.amount * price.toRat ≤ 10 ^ 12 * 1000 :=
    mul_le_mul amount ordinary.below.le positive.le (by positivity)
  have near := (Coin.worth_near valued).le (by positivity)
  constructor <;> linarith

/-- What such a cap alone allows, its share being a millionth at least. -/
theorem limit_le {capValue share limit : Decimal} (nonneg : 0 ≤ capValue.toRat)
    (bounded : capValue.toRat ≤ 10 ^ 15 + 1) (least : 1 / 10 ^ 6 ≤ share.toRat)
    (divided : capValue.div share = .ok limit) : limit.toRat ≤ 11 * 10 ^ 20 := by
  have positive : 0 < share.toRat := lt_of_lt_of_le (by positivity) least
  have quotient : capValue.toRat / share.toRat ≤ (10 ^ 15 + 1) * 10 ^ 6 := by
    rw [div_le_iff₀ positive]
    linarith
  have near := (Decimal.div_near divided).le (by positivity)
  linarith

section Mint

variable {backingPrice nativePrice : Decimal} (ordinary : backingPrice.OrdinaryPrice)
  (ordinary' : nativePrice.OrdinaryPrice) {backingMax nativeMax : Coin}
  (small : backingMax.amount < 10 ^ 12) (small' : nativeMax.amount < 10 ^ 12)
  {backingMaxValue nativeMaxValue value : Decimal} {backingIn nativeIn : Nat}
  (valued : backingMax.worth backingPrice = .ok backingMaxValue)
  (valued' : nativeMax.worth nativePrice = .ok nativeMaxValue)
include ordinary ordinary' small small' valued valued'

/-- Neither the value of a fractional mint nor the backing that it takes is large. -/
theorem fractionalMint_size {share : Decimal} (digits : share.SixDigits) (above : 0 < share.toRat)
    (below : share.toRat < 1)
    (legs : fractionalMint share backingPrice nativePrice backingMax nativeMax backingMaxValue
      nativeMaxValue = .ok (value, backingIn, nativeIn)) :
    value.toRat ≤ 11 * 10 ^ 20 ∧ backingIn * backingPrice.toRat ≤ 12 * 10 ^ 20 := by
  obtain ⟨least, least'⟩ := digits.share_bounds above below
  obtain ⟨taken, bounded⟩ := cap_worth_le ordinary small valued
  obtain ⟨-, bounded'⟩ := cap_worth_le ordinary' small' valued'
  simp only [fractionalMint, bind_ok, Decimal.subTrusted_ok] at legs
  obtain ⟨byBacking, backed, rest, left, byNative, limited, legs⟩ := legs
  have restIs := Decimal.one_sub?_toRat above.le below.le left
  have positive := Coin.worth_nonneg valued' ordinary'.positive
  have high := limit_le (Coin.worth_nonneg valued ordinary.positive) bounded least backed
  have high' := limit_le positive bounded' (restIs ▸ least') limited
  split at legs
  next =>
    -- The cap on backing binds and is taken whole.
    simp only [bind_ok, pure_ok, Prod.mk.injEq] at legs
    obtain ⟨_, -, _, -, _, -, rfl, rfl, -⟩ := legs
    exact ⟨high, by linarith⟩
  next =>
    -- The native token binds, and backing takes its share of the value.
    simp only [bind_ok, pure_ok, Prod.mk.injEq] at legs
    obtain ⟨part, multiplied, amount, paid, rfl, rfl, -⟩ := legs
    refine ⟨high', ?_⟩
    have nonneg := Decimal.div_nonneg limited positive (by linarith)
    have partNonneg := Decimal.mul_nonneg multiplied nonneg above.le
    have atMost : byNative.toRat * share.toRat ≤ byNative.toRat :=
      mul_le_of_le_one_right nonneg below.le
    have near := (Decimal.mul_near multiplied).le (by positivity)
    have whole := Decimal.payInAt_le partNonneg ordinary.positive paid
    have price := ordinary.below
    have within : (capped amount backingMax : ℚ) ≤ amount := by
      unfold capped
      split
      next => exact_mod_cast Nat.min_le_left _ _
      next => exact le_rfl
    have scaled := mul_le_mul_of_nonneg_right within ordinary.positive.le
    linarith

/-- What a mint adds to the requirement is covered by the backing that it takes, and neither is
large. -/
theorem mintWithin_covered {ratio : Decimal} {forced : Bool} (digits : ratio.SixDigits)
    (low : 0 ≤ ratio.toRat) (high : ratio.toRat ≤ 1)
    (legs : mintWithin (.of ratio forced) backingPrice nativePrice backingMax nativeMax
      backingMaxValue nativeMaxValue = .ok (value, backingIn, nativeIn)) :
    0 ≤ value.toRat ∧ value.toRat ≤ 11 * 10 ^ 20 ∧
      backingIn * backingPrice.toRat ≤ 12 * 10 ^ 20 ∧
      value.toRat * ratio.toRat < backingIn * backingPrice.toRat + 1 / 10 ^ 6 := by
  have positive := ordinary.positive
  obtain ⟨taken, bounded⟩ := cap_worth_le ordinary small valued
  obtain ⟨-, bounded'⟩ := cap_worth_le ordinary' small' valued'
  cases mixed : Mix.of ratio forced with
  | fullBacking =>
    -- Forced or not, the whole value is paid in backing.
    rw [mixed] at legs
    simp only [mintWithin, pure_ok, Prod.mk.injEq] at legs
    obtain ⟨rfl, rfl, rfl⟩ := legs
    have nonneg := Coin.worth_nonneg valued positive
    have near := (Coin.worth_near valued).le (by positivity)
    have atMost := mul_le_of_le_one_right nonneg high
    exact ⟨nonneg, by linarith, by linarith, by linarith⟩
  | algorithmic =>
    -- Nothing is required for what is minted.
    rw [mixed] at legs
    simp only [mintWithin, pure_ok, Prod.mk.injEq] at legs
    obtain ⟨rfl, rfl, rfl⟩ := legs
    have none : ratio.toRat = 0 := le_antisymm (Mix.of_eq_algorithmic mixed) low
    rw [none, mul_zero, Nat.cast_zero, zero_mul]
    exact ⟨Coin.worth_nonneg valued' ordinary'.positive, by linarith, by norm_num, by norm_num⟩
  | fractional share =>
    rw [mixed] at legs
    obtain ⟨above, below⟩ := mix_fractional mixed
    obtain rfl := Mix.of_eq_fractional mixed
    obtain ⟨size, size'⟩ :=
      fractionalMint_size ordinary ordinary' small small' valued valued' digits above below legs
    obtain ⟨nonneg, -, -, covered, -⟩ :=
      fractionalMint_le positive ordinary'.positive above below valued valued' legs
    have atMost := mul_le_of_le_one_right nonneg high
    have price := ordinary.below
    unfold Covered at covered
    exact ⟨nonneg, size, size', by linarith⟩

end Mint

/-! ### The size of a burn -/

/-- What a burn takes out of the pool it takes off the requirement. -/
theorem burnOut_covered {ratio backingPrice nativePrice value : Decimal}
    {backingOut nativeOut : Nat} (ordinary : backingPrice.OrdinaryPrice) (low : 0 ≤ ratio.toRat)
    (nonneg : 0 ≤ value.toRat) (small : value.toRat ≤ 10 ^ 12)
    (legs : burnOut (.of ratio false) backingPrice nativePrice value
      = .ok (backingOut, nativeOut)) :
    backingOut * backingPrice.toRat < value.toRat * ratio.toRat + 1 / 10 ^ 6 := by
  have price := ordinary.below
  cases mixed : Mix.of ratio false with
  | fullBacking =>
    rw [mixed] at legs
    simp only [burnOut, bind_ok, pure_ok, Prod.mk.injEq] at legs
    obtain ⟨amount, paid, rfl, -⟩ := legs
    have leg := Decimal.payOutAt_le nonneg ordinary.positive paid
    have whole := le_mul_of_one_le_right nonneg (Mix.of_eq_fullBacking mixed)
    linarith
  | algorithmic =>
    rw [mixed] at legs
    simp only [burnOut, bind_ok, pure_ok, Prod.mk.injEq] at legs
    obtain ⟨amount, -, rfl, -⟩ := legs
    rw [Nat.cast_zero, zero_mul]
    positivity
  | fractional share =>
    rw [mixed] at legs
    obtain ⟨above, below⟩ := mix_fractional mixed
    obtain rfl := Mix.of_eq_fractional mixed
    simp only [burnOut, bind_ok, pure_ok, Prod.mk.injEq] at legs
    obtain ⟨part, multiplied, amount, paid, _, -, _, -, _, -, rfl, -⟩ := legs
    have partNonneg := Decimal.mul_nonneg multiplied nonneg low
    have leg := Decimal.payOutAt_le partNonneg ordinary.positive paid
    have near := (Decimal.mul_near multiplied).le (by positivity)
    have atMost := mul_le_of_le_one_right nonneg below.le
    linarith

/-! ### The surplus after a swap -/

/-- Pools of ordinary size at ordinary prices: at most a thousand of them, each priced and below
`10 ^ 15`. -/
structure OrdinaryPools (e : Engine) : Prop where
  few : e.store.backingPools.values.length ≤ 1000
  priced : e.AllPriced
  backing : ∀ pool ∈ e.store.backingPools.values, pool.backing.amount < 10 ^ 15
  nativePrice : ∀ price ∈ e.prices.get? nativeDenom, price.OrdinaryPrice

instance (e : Engine) : Decidable e.OrdinaryPools :=
  decidable_of_iff
    (e.store.backingPools.values.length ≤ 1000 ∧ e.AllPriced ∧
      (∀ pool ∈ e.store.backingPools.values, pool.backing.amount < 10 ^ 15) ∧
      ∀ price ∈ e.prices.get? nativeDenom, price.OrdinaryPrice)
    ⟨fun ⟨few, priced, backing, nativePrice⟩ => ⟨few, priced, backing, nativePrice⟩,
      fun ⟨few, priced, backing, nativePrice⟩ => ⟨few, priced, backing, nativePrice⟩⟩

/-- A thousand pools below `10 ^ 15` are worth no more than `10 ^ 21`. -/
theorem OrdinaryPools.backingMillionths_le (ordinary : e.OrdinaryPools) :
    e.backingMillionths ≤ 10 ^ 27 := by
  have each (entry : Denom × BackingPool) (member : entry ∈ e.store.backingPools.entries) :
      e.poolMillionths entry.1 entry.2 ≤ 10 ^ 24 := by
    have pool : entry.2 ∈ e.store.backingPools.values := List.mem_map_of_mem member
    have amount := (ordinary.backing _ pool).le
    obtain ⟨-, -, -, -, -, price⟩ := (ordinary.priced _ pool).price
    have product := Nat.mul_le_mul amount price.le
    unfold poolMillionths
    exact_mod_cast product
  have few : e.store.backingPools.entries.length ≤ 1000 := by
    simpa [Table.values] using ordinary.few
  have total := Table.sumEntries_le each (by positivity) few
  exact total.trans (by norm_num)

/-- A state of ordinary size: ordinary pools, the counter of minted units below `10 ^ 15`, and a
backing ratio of six digits that is at most one. -/
structure Ordinary (e : Engine) : Prop extends e.OrdinaryPools where
  minted : ∀ total ∈ e.store.backingTotal, total.stableMinted.amount.natAbs < 10 ^ 15
  ratio : e.store.params.backingRatio.toRat ≤ 1
  digits : e.store.params.backingRatio.SixDigits

instance (e : Engine) : Decidable e.Ordinary :=
  decidable_of_iff
    (e.OrdinaryPools ∧
      (∀ total ∈ e.store.backingTotal, total.stableMinted.amount.natAbs < 10 ^ 15) ∧
      e.store.params.backingRatio.toRat ≤ 1 ∧ e.store.params.backingRatio.SixDigits)
    ⟨fun ⟨pools, minted, ratio, digits⟩ => ⟨pools, minted, ratio, digits⟩,
      fun ⟨pools, minted, ratio, digits⟩ => ⟨pools, minted, ratio, digits⟩⟩

theorem Ordinary.ratioMillionths_bounds (ordinary : e.Ordinary)
    (nonneg : 0 ≤ e.store.params.backingRatio.toRat) :
    0 ≤ e.ratioMillionths ∧ e.ratioMillionths ≤ 1000000 := by
  have digits := ordinary.digits
  have high := ordinary.ratio
  unfold Decimal.SixDigits Decimal.IsMillionths at digits
  rw [digits, le_div_iff₀ (by positivity), zero_mul] at nonneg
  rw [digits, div_le_one (by positivity)] at high
  have cast : (e.ratioMillionths : ℚ) ≤ (1000000 : Int) := high.trans_eq (by norm_num)
  exact ⟨by exact_mod_cast nonneg, by exact_mod_cast cast⟩

/-- The price of a loaded pool is an ordinary one, whole in millionths. -/
theorem AllPriced.backingPrice {denom : Denom} {records : BackingRecords} {price : Decimal}
    (priced : e.AllPriced) (named : e.store.PoolsNamed) (loaded : e.backing denom = .ok records)
    (known : e.price denom = .ok price) :
    price.OrdinaryPrice ∧ price.IsMillionths (e.priceMillionths denom) := by
  obtain ⟨-, stored⟩ := backing_ok loaded
  obtain ⟨reported, found, usual, millionths, -⟩ :=
    (priced _ (Table.mem_values_of_get? stored)).price
  rw [named denom _ stored] at found millionths
  cases found.symm.trans known
  exact ⟨usual, millionths⟩

/-- Numbers of millionths that are less than a millionth out of order are in order. -/
theorem millionths_le {m n : Int} (close : (m : ℚ) / 10 ^ 6 < n / 10 ^ 6 + 1 / 10 ^ 6) : m ≤ n := by
  rw [← add_div, div_lt_div_iff_of_pos_right (by positivity)] at close
  have below : m < n + 1 := by exact_mod_cast close
  omega

/-- Values and counters of this size stay in the range of decimals. -/
theorem surplusInRange {minted : Int} (priced : e.AllPriced)
    (digits : e.store.params.backingRatio.SixDigits)
    (ratio : 0 ≤ e.ratioMillionths ∧ e.ratioMillionths ≤ 1000000)
    (value : e.backingMillionths ≤ 3 * 10 ^ 27) (counter : minted.natAbs ≤ 2 * 10 ^ 21) :
    e.SurplusInRange minted where
  priced := priced
  digits := digits
  value := by
    simp only [Decimal.coefficientBound]
    omega
  counter := by
    simp only [Decimal.coefficientBound]
    omega
  required := by
    have share : e.ratioMillionths.natAbs ≤ 1000000 := by omega
    have product := Nat.mul_le_mul counter share
    rw [Int.natAbs_mul]
    simp only [Decimal.coefficientBound]
    omega

/-- Both surpluses can be computed, and no deficit was made or deepened by more than one unit. -/
def KeepsBacking (e after : Engine) : Prop :=
  ∃ excess excess', e.excessBacking = .ok excess ∧ after.excessBacking = .ok excess' ∧
    min excess 0 - 1 ≤ excess'

section Change

variable {denom : Denom} {before after : BackingRecords} {change : BackingChange}
  (named : e.store.PoolsNamed) (loaded : e.backing denom = .ok before)
  (changed : before.Changed change after) (ledger : Ledger) (event : Event)
include named loaded changed

theorem update_backingMillionths :
    ({ e with ledger, store := e.store.update (.backing after) }.record event).backingMillionths
      = e.backingMillionths + change.backing * e.priceMillionths denom := by
  obtain ⟨-, stored⟩ := backing_ok loaded
  have name := named denom _ stored
  have name' := changed.denom.trans name
  have value : (e.store.backingPools.insert after.pool.backing.denom after.pool).sum
      e.poolMillionths = _ := Table.sum_insert _ _ _ _
  refine value.trans ?_
  rw [name', Table.countAt, stored, Option.elim_some, poolMillionths, poolMillionths, name, name',
    Nat.cast_mul, Nat.cast_mul, changed.backing, backingMillionths]
  ring

omit named in
theorem update_allPriced (priced : e.AllPriced) :
    ({ e with ledger, store := e.store.update (.backing after) }.record event).AllPriced := by
  intro pool member
  obtain ⟨-, stored⟩ := backing_ok loaded
  change e.Priced pool.backing.denom
  rcases Table.mem_values_insert member with rfl | old
  · rw [changed.denom]
    exact priced _ (Table.mem_values_of_get? stored)
  · exact priced pool old

/-- A swap whose backing is worth what it adds to the requirement makes no deficit. For a burn both
are negative. -/
theorem update_keepsBacking (ordinary : e.Ordinary)
    (nonneg : 0 ≤ e.store.params.backingRatio.toRat) {price : Decimal}
    (priced : e.price denom = .ok price)
    (covered : change.stable * e.store.params.backingRatio.toRat
      < change.backing * price.toRat + 1 / 10 ^ 6)
    (minted : change.stable.natAbs ≤ 11 * 10 ^ 20)
    (taken : change.backing * price.toRat ≤ 12 * 10 ^ 20) :
    e.KeepsBacking
      ({ e with ledger, store := e.store.update (.backing after) }.record event) := by
  let final := { e with ledger, store := e.store.update (.backing after) }.record event
  obtain ⟨recorded, -⟩ := backing_ok loaded
  have ratio := ordinary.ratioMillionths_bounds nonneg
  have value := ordinary.backingMillionths_le
  have counter := ordinary.minted _ recorded
  have booked : final.backingMillionths = _ :=
    update_backingMillionths named loaded changed ledger event
  have counted := changed.totalStable
  -- In whole millionths the two sides cannot be apart by less than one.
  obtain ⟨-, unit⟩ := ordinary.priced.backingPrice named loaded priced
  have share : e.store.params.backingRatio.toRat = e.ratioMillionths / 10 ^ 6 := ordinary.digits
  rw [share, unit] at covered
  rw [unit] at taken
  have enough : change.stable * e.ratioMillionths ≤ change.backing * e.priceMillionths denom := by
    refine millionths_le ?_
    push_cast at covered ⊢
    linarith
  have most : change.backing * e.priceMillionths denom ≤ 12 * 10 ^ 26 := by
    have cast : ((change.backing * e.priceMillionths denom : Int) : ℚ) ≤ 12 * 10 ^ 26 := by
      push_cast at taken ⊢
      linarith
    exact_mod_cast cast
  have start : e.SurplusInRange before.total.stableMinted.amount :=
    surplusInRange ordinary.priced ordinary.digits ratio (by omega) (by omega)
  have finish : final.SurplusInRange after.total.stableMinted.amount :=
    surplusInRange (update_allPriced loaded changed ledger event ordinary.priced)
      ordinary.digits ratio (by omega) (by omega)
  refine ⟨_, _, excessBacking_eq recorded start, excessBacking_eq (e := final) rfl finish, ?_⟩
  refine surplus_ge final.backingMillionths_nonneg ?_
  have same : final.ratioMillionths = e.ratioMillionths := rfl
  rw [same, counted, booked]
  linarith

end Change

/-! ### Transactions -/

section Transactions

variable (named : e.store.PoolsNamed) (ordinary : e.Ordinary)
  (nonneg : 0 ≤ e.store.params.backingRatio.toRat) {sender : Principal} {plan : Plan}
  (ledger : Ledger) (event : Event)
include named ordinary nonneg

theorem planMint_keepsBacking {r : MintRequest} (small : r.backingInMax.amount < 10 ^ 12)
    (small' : r.nativeInMax.amount < 10 ^ 12) (planned : e.planMint sender r = .ok plan) :
    e.KeepsBacking ({ e with ledger, store := e.store.update plan.update }.record event) := by
  obtain ⟨-, q, before, after, quoted, -, loaded, changed, -, written, -, -⟩ := planMint_ok planned
  obtain ⟨-, -, _, backingPrice, nativePrice, _, _, value, backingIn, nativeIn, mintTotal, _, _, _,
    mintFee, -, priced, priced', valued, valued', legs, paid, -, -, -, -, -, -, within, rfl⟩ :=
    mintQuote_ok quoted
  obtain ⟨usual, -⟩ := ordinary.priced.backingPrice named loaded priced
  have usual' := ordinary.nativePrice nativePrice (price_ok priced').1
  obtain ⟨valueNonneg, size, taken, covered⟩ :=
    mintWithin_covered usual usual' small small' valued valued' ordinary.digits nonneg
      ordinary.ratio legs
  have minted := Decimal.payOutAt_pegTarget_le valueNonneg paid
  have added := mul_le_mul_of_nonneg_right minted nonneg
  -- The fee comes out of what is minted, so payout and fee are the whole mint.
  have total : ((mintTotal - mintFee.amount : Nat) : Int) + mintFee.amount = mintTotal := by omega
  rw [written]
  refine update_keepsBacking named loaded changed ledger event ordinary nonneg priced ?_ ?_ ?_
  · dsimp only
    rw [total, Int.cast_natCast, Int.cast_natCast]
    exact added.trans_lt covered
  · dsimp only
    rw [total, Int.natAbs_natCast]
    exact_mod_cast minted.trans size
  · dsimp only
    rwa [Int.cast_natCast]

theorem planBurn_keepsBacking {r : BurnRequest} (small : r.burnIn.amount < 10 ^ 12)
    (planned : e.planBurn sender r = .ok plan) :
    e.KeepsBacking ({ e with ledger, store := e.store.update plan.update }.record event) := by
  obtain ⟨-, q, before, after, quoted, -, -, -, loaded, changed, -, written, -, -⟩ :=
    planBurn_ok planned
  obtain ⟨-, -, _, backingPrice, _, burnFee, value, backingOut, _, _, -, priced, -, -, within,
    valued, legs, -, -, -, rfl⟩ := burnQuote_ok quoted
  obtain ⟨usual, -⟩ := ordinary.priced.backingPrice named loaded priced
  -- The stable unit is taken at the peg, so the value is the number of units burned.
  rw [Coin.worth_pegTarget] at valued
  have units : value.toRat = (r.burnIn.amount - burnFee.amount : Nat) :=
    Decimal.ofAmount_toRat valued
  have atMost : value.toRat ≤ 10 ^ 12 := by
    rw [units]
    exact_mod_cast (Nat.sub_le _ _).trans small.le
  have covered := burnOut_covered usual nonneg (units ▸ Nat.cast_nonneg _) atMost legs
  have paidOut : 0 ≤ backingOut * backingPrice.toRat := by
    have positive := usual.positive
    positivity
  rw [units, Nat.cast_sub within] at covered
  rw [written]
  refine update_keepsBacking named loaded changed ledger event ordinary nonneg priced ?_ ?_ ?_
  · push_cast
    linarith
  · dsimp only
    omega
  · push_cast
    linarith

/-- No mint by swap, forced to full backing or not, and no burn by swap of an ordinary size makes a
deficit of backing or deepens one, by more than one unit. -/
theorem transact_keepsBacking {request : Request} {response : Response}
    (small : request.IsSmallSwap) (returned : (e.transact sender request).result = .ok response) :
    e.KeepsBacking (e.transact sender request).engine := by
  obtain ⟨plan, ledger, planned, -, -, carried⟩ := transact_ok returned
  rw [carried]
  cases request with
  | mint r =>
    exact planMint_keepsBacking named ordinary nonneg ledger plan.event small.1 small.2 planned
  | burn r => exact planBurn_keepsBacking named ordinary nonneg ledger plan.event small planned
  | buyback | reback | borrow | repay | deposit | redeem | liquidate => exact small.elim

end Transactions

/-- Above the peg a mint leaves the surplus at nothing, and below the peg a burn takes one unit of
it, which is all that the roundings can take. -/
theorem transact_keepsBacking_swapDesk :
    let trader : Principal := ⟨[1], by decide⟩
    let above := swapDesk trader (percent 105) (percent 97)
    let below := swapDesk trader (percent 95) (percent 97)
    let mint : MintRequest := ⟨none, ⟨stableDenom, 1⟩, ⟨"usdc", 1000⟩, ⟨nativeDenom, 0⟩, false⟩
    let burn : BurnRequest := ⟨none, ⟨stableDenom, 500⟩, ⟨"usdc", 0⟩, ⟨nativeDenom, 0⟩⟩
    let minted : MintQuote :=
      ⟨⟨"usdc", 1000⟩, ⟨nativeDenom, 32334⟩, ⟨stableDenom, 1921⟩, ⟨stableDenom, 19⟩⟩
    let burned : BurnQuote := ⟨⟨"usdc", 255⟩, ⟨nativeDenom, 8250⟩, ⟨stableDenom, 5⟩⟩
    ((above.transact trader (.mint mint)).result = .ok (.mint minted) ∧
        above.excessBacking = .ok 0 ∧
        (above.transact trader (.mint mint)).engine.excessBacking = .ok 0 ∧
        min 0 0 - 1 ≤ (0 : Int)) ∧
      ((below.transact trader (.burn burn)).result = .ok (.burn burned) ∧
        below.excessBacking = .ok 0 ∧
        (below.transact trader (.burn burn)).engine.excessBacking = .ok (-1) ∧
        min 0 0 - 1 ≤ (-1 : Int)) := by
  intro trader above below mint burn minted burned
  have named : above.store.PoolsNamed := (run_sound (fresh_sound _ _) _).keyed.poolsNamed
  have named' : below.store.PoolsNamed := (run_sound (fresh_sound _ _) _).keyed.poolsNamed
  obtain ⟨ordinary, nonneg, start, first, finish⟩ : above.Ordinary ∧
      0 ≤ above.store.params.backingRatio.toRat ∧ above.excessBacking = .ok 0 ∧
      (above.transact trader (.mint mint)).result = .ok (.mint minted) ∧
      (above.transact trader (.mint mint)).engine.excessBacking = .ok 0 := by
    decide +kernel
  obtain ⟨ordinary', nonneg', start', second, finish'⟩ : below.Ordinary ∧
      0 ≤ below.store.params.backingRatio.toRat ∧ below.excessBacking = .ok 0 ∧
      (below.transact trader (.burn burn)).result = .ok (.burn burned) ∧
      (below.transact trader (.burn burn)).engine.excessBacking = .ok (-1) := by
    decide +kernel
  obtain ⟨_, _, before, after, kept⟩ := transact_keepsBacking named ordinary nonneg
    (show Request.IsSmallSwap (.mint mint) from ⟨by decide, by decide⟩) first
  obtain ⟨_, _, before', after', kept'⟩ := transact_keepsBacking named' ordinary'
    nonneg' (show Request.IsSmallSwap (.burn burn) from (by decide : 500 < 10 ^ 12)) second
  cases before.symm.trans start
  cases after.symm.trans finish
  cases before'.symm.trans start'
  cases after'.symm.trans finish'
  exact ⟨⟨first, start, finish, kept⟩, ⟨second, start', finish', kept'⟩⟩

/-- An engine with a backing ratio below zero, as only a store filled without checks can have it,
and a trader with a hundred stable units that were not minted by swap. -/
def negativeRatioDesk (trader : Principal) : Engine :=
  (fresh { Params.initial with backingRatio := -1 } .initial).run
    [.registerBacking
        { denom := "usdc"
          enabled := true
          maxBacking := none
          maxStableMint := none
          mintFee := none
          burnFee := none
          buybackFee := none
          rebackFee := none },
      .setRate "usdc" 1, .setRate nativeDenom 1, .setRate stableDenom (percent 95),
      .fund (.user trader) ⟨stableDenom, 100⟩]

/-- Below zero the ratio requires backing for units burned: a burn for native token alone leaves a
deficit of a hundred where there was none. -/
theorem transact_negativeRatio_deficit :
    let trader : Principal := ⟨[1], by decide⟩
    let e := negativeRatioDesk trader
    let burn : BurnRequest := ⟨none, ⟨stableDenom, 100⟩, ⟨"usdc", 0⟩, ⟨nativeDenom, 0⟩⟩
    let burned : BurnQuote := ⟨⟨"usdc", 0⟩, ⟨nativeDenom, 100⟩, ⟨stableDenom, 0⟩⟩
    e.store.PoolsNamed ∧ e.Ordinary ∧ (Request.burn burn).IsSmallSwap ∧
      (e.transact trader (.burn burn)).result = .ok (.burn burned) ∧
      e.excessBacking = .ok 0 ∧
      (e.transact trader (.burn burn)).engine.excessBacking = .ok (-100) ∧
      ¬ min 0 0 - 1 ≤ (-100 : Int) := by
  intro trader e burn burned
  have named : e.store.PoolsNamed := (run_sound (fresh_sound _ _) _).keyed.poolsNamed
  have small : (Request.burn burn).IsSmallSwap := (by decide : 100 < 10 ^ 12)
  obtain ⟨ordinary, returned, start, finish⟩ : e.Ordinary ∧
      (e.transact trader (.burn burn)).result = .ok (.burn burned) ∧ e.excessBacking = .ok 0 ∧
      (e.transact trader (.burn burn)).engine.excessBacking = .ok (-100) := by
    decide +kernel
  exact ⟨named, ordinary, small, returned, start, finish, by decide⟩

end Engine

end Stablecoin
