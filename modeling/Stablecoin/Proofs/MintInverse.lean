import Stablecoin.Proofs.Ceilings
import Stablecoin.Proofs.Fees
import Stablecoin.Proofs.MixLegs
import Stablecoin.Proofs.SwapCosts

/-!
# The two mint quotes are inverse

At a fractional ratio, without fee and ceilings, both mint quotes are exact up to the direction in
which they round: what minting takes is the least that covers the units, and what two caps mint is
the most that they cover. So an amount is affordable within the caps exactly if it is no more than
what they mint.
-/
namespace Stablecoin

namespace Engine

/-! ### Splitting a value exactly -/

section Legs

variable {ratio rest backingPrice nativePrice : Decimal} {part unit part' unit' : Nat}
  (backing : Leg ratio backingPrice part unit) (native : Leg rest nativePrice part' unit')
  (left : Decimal.subTrusted 1 ratio = .ok rest)
include backing native left

/-- Whole units cost each leg the least amount that covers its share of them. -/
theorem mintIn_spec {value : Decimal} {n : Nat} (whole : value.toRat = n) (small : n ≤ 10 ^ 21) :
    ∃ backingIn nativeIn,
      mintIn (.fractional ratio) backingPrice nativePrice value = .ok (backingIn, nativeIn) ∧
      (∀ m, backingIn ≤ m ↔ n * part ≤ m * unit) ∧
      ∀ m, nativeIn ≤ m ↔ n * part' ≤ m * unit' := by
  obtain ⟨product, amount, multiplied, paid, least⟩ := backing.payIn whole small
  obtain ⟨product', amount', multiplied', paid', least'⟩ := native.payIn whole small
  refine ⟨amount, amount', ?_, least, least'⟩
  simp only [mintIn, left, multiplied, paid, multiplied', paid', ok_bind]
  rfl

/-- A fractional mint contains the units that both caps cover, takes no more than the caps, and
covers what it contains. -/
theorem fractionalMint_spec (backingMax nativeMax : Coin) (positive : 0 < backingMax.amount)
    (positive' : 0 < nativeMax.amount) (small : backingMax.amount * unit ≤ 10 ^ 21)
    (small' : nativeMax.amount * unit' ≤ 10 ^ 21) :
    ∃ backingMaxValue nativeMaxValue value backingIn nativeIn,
      backingMax.worth backingPrice = .ok backingMaxValue ∧
      nativeMax.worth nativePrice = .ok nativeMaxValue ∧
      fractionalMint ratio backingPrice nativePrice backingMax nativeMax backingMaxValue
        nativeMaxValue = .ok (value, backingIn, nativeIn) ∧
      0 ≤ value.toRat ∧ value.toRat ≤ 10 ^ 21 ∧
      (∀ n : Nat, (n : ℚ) ≤ value.toRat ↔
        n * part ≤ backingMax.amount * unit ∧ n * part' ≤ nativeMax.amount * unit') ∧
      backingIn ≤ backingMax.amount ∧ nativeIn ≤ nativeMax.amount ∧
      ∀ n : Nat, (n : ℚ) ≤ value.toRat →
        n * part ≤ backingIn * unit ∧ n * part' ≤ nativeIn * unit' := by
  obtain ⟨backingMaxValue, byBacking, valued, divided, nonneg, bounded, allows, -⟩ :=
    backing.limit small
  obtain ⟨nativeMaxValue, byNative, valued', divided', nonneg', bounded', allows', -⟩ :=
    native.limit small'
  have open' : backingMax.isPositive = true := decide_eq_true positive
  have open'' : nativeMax.isPositive = true := decide_eq_true positive'
  have closed : nativeMax.isZero = false := beq_eq_false_iff_ne.mpr positive'.ne'
  refine ⟨backingMaxValue, nativeMaxValue, ?_⟩
  simp only [fractionalMint, divided, divided', left, ok_bind, open', closed, Bool.false_eq_true,
    false_or, true_and]
  by_cases binding : byBacking ≤ byNative
  · -- The cap on backing binds, and native token takes its share.
    obtain ⟨product, amount, multiplied, paid, covers⟩ := native.takes nonneg bounded
    have ordered := Decimal.le_iff_toRat.mp binding
    refine ⟨byBacking, backingMax.amount, min amount nativeMax.amount, valued, valued', ?_, nonneg,
      bounded, fun n => ?_, le_rfl, Nat.min_le_right _ _, fun n contained => ?_⟩
    · simp only [if_pos binding, multiplied, paid, ok_bind, capped, open'', if_true]
      rfl
    · exact ⟨fun contained => ⟨(allows n).mp contained, (allows' n).mp (contained.trans ordered)⟩,
        fun covered => (allows n).mpr covered.1⟩
    · have both := Nat.le_min.mpr ⟨covers n contained, (allows' n).mp (contained.trans ordered)⟩
      exact ⟨(allows n).mp contained, both.trans_eq (Nat.mul_min_mul_right ..)⟩
  · obtain ⟨product, amount, multiplied, paid, covers⟩ := backing.takes nonneg' bounded'
    have ordered := (not_le.mp (Decimal.le_iff_toRat.not.mp binding)).le
    refine ⟨byNative, min amount backingMax.amount, nativeMax.amount, valued, valued', ?_, nonneg',
      bounded', fun n => ?_, Nat.min_le_right _ _, le_rfl, fun n contained => ?_⟩
    · simp only [if_neg binding, multiplied, paid, ok_bind, capped, open', if_true]
      rfl
    · exact ⟨fun contained => ⟨(allows n).mp (contained.trans ordered), (allows' n).mp contained⟩,
        fun covered => (allows' n).mpr covered.2⟩
    · have both := Nat.le_min.mpr ⟨covers n contained, (allows n).mp (contained.trans ordered)⟩
      exact ⟨both.trans_eq (Nat.mul_min_mul_right ..), (allows' n).mp contained⟩

end Legs

/-! ### Minting without fee and ceilings -/

/-- A fractional ratio and prices in millionths, and an asset without mint fee and ceilings. -/
structure FreeMint (e : Engine) (denom : Denom) : Prop where
  above : 0 < e.store.params.backingRatio.toRat
  below : e.store.params.backingRatio.toRat < 1
  digits : e.store.params.backingRatio.SixDigits
  priced : e.Priced denom
  nativePriced : e.Priced nativeDenom
  fee : ∀ params ∈ e.store.backingParams.get? denom, ∀ rate ∈ params.mintFee, rate.toRat = 0
  ceilings : ∀ params ∈ e.store.backingParams.get? denom,
    params.maxBacking = none ∧ params.maxStableMint = none

instance (e : Engine) (denom : Denom) : Decidable (e.FreeMint denom) :=
  decidable_of_iff
    (0 < e.store.params.backingRatio.toRat ∧ e.store.params.backingRatio.toRat < 1 ∧
      e.store.params.backingRatio.SixDigits ∧ e.Priced denom ∧ e.Priced nativeDenom ∧
      (∀ params ∈ e.store.backingParams.get? denom, ∀ rate ∈ params.mintFee, rate.toRat = 0) ∧
      ∀ params ∈ e.store.backingParams.get? denom,
        params.maxBacking = none ∧ params.maxStableMint = none)
    ⟨fun ⟨above, below, digits, priced, nativePriced, fee, ceilings⟩ =>
        ⟨above, below, digits, priced, nativePriced, fee, ceilings⟩,
      fun ⟨above, below, digits, priced, nativePriced, fee, ceilings⟩ =>
        ⟨above, below, digits, priced, nativePriced, fee, ceilings⟩⟩

/-- The most units of which two amounts cover their shares. -/
def mintable (e : Engine) (denom : Denom) (backing native : Nat) : Nat :=
  min (backing * e.priceMillionths denom / e.backingShare)
    (native * e.priceMillionths nativeDenom / (1000000 - e.backingShare))

theorem mintable_mono (e : Engine) (denom : Denom) {backing native backing' native' : Nat}
    (more : backing ≤ backing') (more' : native ≤ native') :
    e.mintable denom backing native ≤ e.mintable denom backing' native' :=
  min_le_min (Nat.div_le_div_right (Nat.mul_le_mul_right _ more))
    (Nat.div_le_div_right (Nat.mul_le_mul_right _ more'))

namespace FreeMint

variable {e : Engine} {denom : Denom} (free : e.FreeMint denom)
include free

theorem mix :
    Mix.of e.store.params.backingRatio false = .fractional e.store.params.backingRatio := by
  have above := free.above
  have below := free.below
  unfold Mix.of
  rw [if_neg, if_neg]
  · rw [Decimal.le_iff_toRat, Decimal.toRat_zero]
    exact not_le.mpr above
  · rw [Decimal.le_iff_toRat, Decimal.toRat_one]
    simpa using below

theorem share : e.store.params.backingRatio.IsMillionths e.backingShare ∧ 0 < e.backingShare ∧
    e.backingShare < 1000000 :=
  backingShare_spec free.digits free.above free.below

theorem legs : ∃ rest backingPrice nativePrice, e.price denom = .ok backingPrice ∧
    e.price nativeDenom = .ok nativePrice ∧
    Decimal.subTrusted 1 e.store.params.backingRatio = .ok rest ∧
    Leg e.store.params.backingRatio backingPrice e.backingShare (e.priceMillionths denom) ∧
    Leg rest nativePrice (1000000 - e.backingShare) (e.priceMillionths nativeDenom) :=
  fractionalLegs free.digits free.above free.below free.priced free.nativePriced

theorem le_mintable {n backing native : Nat} :
    n ≤ e.mintable denom backing native ↔
      n * e.backingShare ≤ backing * e.priceMillionths denom ∧
        n * (1000000 - e.backingShare) ≤ native * e.priceMillionths nativeDenom := by
  obtain ⟨-, positive, below⟩ := free.share
  unfold mintable
  rw [Nat.le_min, Nat.le_div_iff_mul_le positive, Nat.le_div_iff_mul_le (by omega)]

variable {params : BackingParams} {records : BackingRecords} (peg : e.requireMintPrice = .ok ())
  (known : e.backingParams denom = .ok params) (loaded : e.backing denom = .ok records)
include peg known loaded

/-- Minting takes the least amounts that cover the units, if the counters allow it. -/
theorem mintCost_eq {n : Nat} (small : n ≤ 10 ^ 21) :
    ∃ backingIn nativeIn,
      e.mintCost ⟨stableDenom, n⟩ denom false = (do
        let _ ← records.pool.stableMinted.add n
        let _ ← records.pool.backing.add backingIn
        pure ⟨⟨denom, backingIn⟩, ⟨nativeDenom, nativeIn⟩, .zero stableDenom⟩) ∧
      (∀ m, backingIn ≤ m ↔ n * e.backingShare ≤ m * e.priceMillionths denom) ∧
      ∀ m, nativeIn ≤ m ↔
        n * (1000000 - e.backingShare) ≤ m * e.priceMillionths nativeDenom := by
  obtain ⟨rest, backingPrice, nativePrice, priced, priced', left, leg, leg'⟩ := free.legs
  obtain ⟨stored, -⟩ := backingParams_ok known
  obtain ⟨noBackingCeiling, noMintCeiling⟩ := free.ceilings params stored
  have inRange : n < Decimal.coefficientBound := by
    simp only [Decimal.coefficientBound]
    omega
  have counted := Decimal.ofAmount_of_lt inRange
  obtain ⟨backingIn, nativeIn, split, least, least'⟩ :=
    mintIn_spec leg leg' left (Decimal.ofAmount_toRat counted) small
  have charged := Coin.fee_of_zero (free.fee params stored) (c := ⟨stableDenom, n⟩) inRange
  have total : (Coin.mk stableDenom n).add 0 = .ok ⟨stableDenom, n⟩ :=
    Coin.add_ok.mpr ⟨by simp only [amountBound]; omega, rfl⟩
  have valued : (Coin.mk stableDenom n).worth pegTarget = .ok ⟨n, 0, inRange, by decide⟩ :=
    (Coin.worth_pegTarget _).trans counted
  refine ⟨backingIn, nativeIn, ?_, least, least'⟩
  simp only [mintCost, Coin.requireDenom, require, if_true, pure_bind, peg, known, priced, priced',
    charged, Coin.zero, total, valued, loaded, free.mix, split, ok_bind,
    BackingParams.requireMintCeiling, BackingParams.requireBackingCeiling, noBackingCeiling,
    noMintCeiling]

/-- Two caps mint the most units that they cover, for amounts within the caps that cover them too,
if the counters allow it. -/
theorem mintQuote_eq {backing native : Nat} (positive : 0 < backing) (positive' : 0 < native)
    (small : backing * e.priceMillionths denom ≤ 10 ^ 21)
    (small' : native * e.priceMillionths nativeDenom ≤ 10 ^ 21) :
    ∃ backingIn nativeIn,
      e.mintQuote ⟨denom, backing⟩ ⟨nativeDenom, native⟩ false = (do
        let _ ← records.pool.stableMinted.add (e.mintable denom backing native)
        let _ ← records.pool.backing.add backingIn
        pure ⟨⟨denom, backingIn⟩, ⟨nativeDenom, nativeIn⟩,
          ⟨stableDenom, e.mintable denom backing native⟩, .zero stableDenom⟩) ∧
      backingIn ≤ backing ∧ nativeIn ≤ native ∧
      e.mintable denom backing native ≤ e.mintable denom backingIn nativeIn := by
  obtain ⟨rest, backingPrice, nativePrice, priced, priced', left, leg, leg'⟩ := free.legs
  obtain ⟨stored, -⟩ := backingParams_ok known
  obtain ⟨noBackingCeiling, noMintCeiling⟩ := free.ceilings params stored
  obtain ⟨backingMaxValue, nativeMaxValue, value, backingIn, nativeIn, valued, valued', split,
    nonneg, bounded, contains, within, within', covers⟩ :=
    fractionalMint_spec leg leg' left ⟨denom, backing⟩ ⟨nativeDenom, native⟩ positive positive'
      small small'
  have inRange : value.toRat ≤ Decimal.largest.toRat := by
    rw [Decimal.largest_toRat]
    linarith
  obtain ⟨total, minted, most⟩ := Decimal.payOutAt_pegTarget nonneg inRange
  have same : total = e.mintable denom backing native :=
    eq_of_forall_le_iff fun n => by rw [most, contains, free.le_mintable]
  subst same
  have contained := (most _).mp le_rfl
  have charged : (Coin.mk stableDenom (e.mintable denom backing native)).fee params.mintFee
      = .ok (Coin.zero stableDenom) :=
    Coin.fee_of_zero (free.fee params stored)
      (Decimal.lt_coefficientBound_of_le (contained.trans inRange))
  have net : (Coin.mk stableDenom (e.mintable denom backing native)).sub 0
      = .ok ⟨stableDenom, e.mintable denom backing native⟩ := Coin.sub_ok.mpr ⟨Nat.zero_le _, rfl⟩
  refine ⟨backingIn, nativeIn, ?_, within, within', free.le_mintable.mpr (covers _ contained)⟩
  simp only [mintQuote, Coin.requireDenom, require, if_true, pure_bind, peg, known, priced, priced',
    valued, valued', free.mix, mintWithin, split, minted, loaded, charged, Coin.zero, net, ok_bind,
    BackingParams.requireMintCeiling, BackingParams.requireBackingCeiling, noBackingCeiling,
    noMintCeiling]

end FreeMint

variable {e : Engine}

/-- It takes some amount to cover some value. -/
theorem least_pos {amount n unit : Nat} (least : ∀ m, amount ≤ m ↔ n ≤ m * unit)
    (some : 0 < n) : 0 < amount := by
  by_contra none
  have covered := (least 0).mp (Nat.not_lt.mp none)
  omega

/-- The least amount that covers a value is worth less than one coin more. -/
theorem least_mul_le {amount n unit : Nat} (least : ∀ m, amount ≤ m ↔ n ≤ m * unit)
    (positive : 0 < unit) : amount * unit ≤ n + unit := by
  have enough : amount ≤ n / unit + 1 := by
    rw [least, Nat.add_mul, Nat.one_mul]
    have split := Nat.div_add_mod n unit
    have rest := Nat.mod_lt n positive
    rw [Nat.mul_comm] at split
    omega
  calc amount * unit ≤ (n / unit + 1) * unit := Nat.mul_le_mul_right _ enough
    _ = n / unit * unit + unit := by ring
    _ ≤ n + unit := Nat.add_le_add_right (Nat.div_mul_le_self _ _) _

/-- A counter that fewer units fit either takes more or would be filled up by them. -/
theorem add_or_overflow {counter moved : SignedCoin} {few n : Nat}
    (fewer : counter.add few = .ok moved) (low : few ≤ n) (small : n < counterBound) :
    (∃ sum, counter.add n = .ok sum) ∨
      counter.add n = .error (.rejected .overflow) ∧ (counterBound : Int) ≤ counter.amount + n := by
  obtain ⟨⟨-, start, -⟩, -⟩ := SignedCoin.move_ok.mp fewer
  by_cases room : counter.amount + n < counterBound
  · exact .inl ⟨_, SignedCoin.move_ok.mpr ⟨⟨by omega, by omega, room⟩, rfl⟩⟩
  · refine .inr ⟨?_, Int.not_lt.mp room⟩
    rw [SignedCoin.add, SignedCoin.move, if_neg fun fits => room fits.2.2]
    rfl

/-- Offered as caps, the cost of some units is taken whole and mints those units at least, unless
what it mints would fill up the pool's counter. -/
theorem FreeMint.mintQuote_cost {denom : Denom} (free : e.FreeMint denom) {params : BackingParams}
    {records : BackingRecords} (peg : e.requireMintPrice = .ok ())
    (known : e.backingParams denom = .ok params) (loaded : e.backing denom = .ok records)
    {n backingCost nativeCost : Nat} (some : 0 < n) (few : n < 10 ^ 12)
    (least : ∀ m, backingCost ≤ m ↔ n * e.backingShare ≤ m * e.priceMillionths denom)
    (least' : ∀ m, nativeCost ≤ m ↔
      n * (1000000 - e.backingShare) ≤ m * e.priceMillionths nativeDenom)
    {minted : SignedCoin} (counts : records.pool.stableMinted.add n = .ok minted)
    {pooled : Coin} (adds : records.pool.backing.add backingCost = .ok pooled) :
    (∃ again, e.mintQuote ⟨denom, backingCost⟩ ⟨nativeDenom, nativeCost⟩ false = .ok again ∧
      n ≤ again.mintOut.amount ∧ again.backingIn = ⟨denom, backingCost⟩ ∧
      again.nativeIn = ⟨nativeDenom, nativeCost⟩) ∨
    e.mintQuote ⟨denom, backingCost⟩ ⟨nativeDenom, nativeCost⟩ false
        = .error (.rejected .overflow) ∧
      (counterBound : Int) ≤ records.pool.stableMinted.amount
        + e.mintable denom backingCost nativeCost := by
  obtain ⟨-, share_pos, share_lt⟩ := free.share
  obtain ⟨-, -, -, -, unit_pos, unit_lt⟩ := free.priced.price
  obtain ⟨-, -, -, -, unit_pos', unit_lt'⟩ := free.nativePriced.price
  have costs := least_mul_le least unit_pos
  have costs' := least_mul_le least' unit_pos'
  have wide := Nat.mul_le_mul few.le share_lt.le
  have wide' := Nat.mul_le_mul few.le (Nat.sub_le 1000000 e.backingShare)
  have positive := least_pos least (Nat.mul_pos some share_pos)
  have positive' := least_pos least' (Nat.mul_pos some (Nat.sub_pos_of_lt share_lt))
  obtain ⟨backingIn, nativeIn, quote, within, within', covered⟩ :=
    free.mintQuote_eq peg known loaded positive positive' (by omega) (by omega)
  have enough : n ≤ e.mintable denom backingCost nativeCost :=
    free.le_mintable.mpr ⟨(least _).mp le_rfl, (least' _).mp le_rfl⟩
  -- What the caps mint covers the units, so no less than their cost is taken for it.
  obtain ⟨share, share'⟩ := free.le_mintable.mp (enough.trans covered)
  obtain rfl := Nat.le_antisymm within ((least _).mpr share)
  obtain rfl := Nat.le_antisymm within' ((least' _).mpr share')
  have bounded : e.mintable denom backingIn nativeIn ≤ 10 ^ 21 :=
    ((Nat.min_le_left _ _).trans (Nat.div_le_self _ _)).trans (by omega)
  rw [quote]
  rcases add_or_overflow counts enough (by simp only [counterBound]; omega) with
    ⟨moved, fits⟩ | ⟨refused, full⟩
  · exact .inl ⟨_, bind_ok.mpr ⟨moved, fits, bind_ok.mpr ⟨pooled, adds, rfl⟩⟩, enough, rfl, rfl⟩
  · refine .inr ⟨?_, full⟩
    rw [refused]
    rfl

/-- What minting costs stays within two caps exactly if no more is minted than both caps allow, and
what the caps allow is affordable. Offered as caps, the cost of some units is taken whole and mints
those units at least, unless what it mints would fill up the pool's counter. -/
theorem mintQuote_mintCost_inverse {backingMax nativeMax mintOut : Coin} {q : MintQuote}
    {c : MintCost} (free : e.FreeMint backingMax.denom)
    (positive : 0 < backingMax.amount ∧ 0 < nativeMax.amount)
    (small : backingMax.amount < 10 ^ 12 ∧ nativeMax.amount < 10 ^ 12)
    (few : mintOut.amount < 10 ^ 12)
    (quoted : e.mintQuote backingMax nativeMax false = .ok q)
    (costed : e.mintCost mintOut backingMax.denom false = .ok c) :
    (c.backingIn.amount ≤ backingMax.amount ∧ c.nativeIn.amount ≤ nativeMax.amount ↔
        mintOut.amount ≤ q.mintOut.amount) ∧
      (∃ most, e.mintCost q.mintOut backingMax.denom false = .ok most ∧
        most.backingIn.amount ≤ backingMax.amount ∧ most.nativeIn.amount ≤ nativeMax.amount) ∧
      (0 < mintOut.amount →
        (∃ again, e.mintQuote c.backingIn c.nativeIn false = .ok again ∧
          mintOut.amount ≤ again.mintOut.amount ∧ again.backingIn = c.backingIn ∧
          again.nativeIn = c.nativeIn) ∨
        q.mintOut.amount < mintOut.amount ∧
          e.mintQuote c.backingIn c.nativeIn false = .error (.rejected .overflow) ∧
          ∃ records, e.backing backingMax.denom = .ok records ∧
            (counterBound : Int) ≤ records.pool.stableMinted.amount
              + e.mintable backingMax.denom c.backingIn.amount c.nativeIn.amount) := by
  obtain ⟨native, peg, params, _, _, _, _, _, _, _, _, records, _, _, _, known, -, -, -, -, -, -,
    loaded, -⟩ := mintQuote_ok quoted
  obtain ⟨stable, -⟩ := mintCost_ok costed
  obtain ⟨denom, backing⟩ := backingMax
  obtain ⟨_, nativeAmount⟩ := nativeMax
  obtain ⟨_, n⟩ := mintOut
  dsimp only at native stable free positive small few known loaded quoted costed ⊢
  subst native
  subst stable
  obtain ⟨-, -, -, -, unit_pos, unit_lt⟩ := free.priced.price
  obtain ⟨-, -, -, -, unit_pos', unit_lt'⟩ := free.nativePriced.price
  have size : backing * e.priceMillionths denom ≤ 10 ^ 21 :=
    (Nat.mul_le_mul small.1.le unit_lt.le).trans (by norm_num)
  have size' : nativeAmount * e.priceMillionths nativeDenom ≤ 10 ^ 21 :=
    (Nat.mul_le_mul small.2.le unit_lt'.le).trans (by norm_num)
  obtain ⟨backingIn, nativeIn, quote, within, within', covered⟩ :=
    free.mintQuote_eq peg known loaded positive.1 positive.2 size size'
  obtain ⟨backingCost, nativeCost, cost, least, least'⟩ :=
    free.mintCost_eq peg known loaded (few.le.trans (by norm_num))
  rw [quote] at quoted
  rw [cost] at costed
  simp only [bind_ok, pure_ok] at quoted costed
  obtain ⟨minted, counts, pooled, adds, rfl⟩ := quoted
  obtain ⟨minted', counts', pooled', adds', rfl⟩ := costed
  have affordable (b m : Nat) :
      backingCost ≤ b ∧ nativeCost ≤ m ↔ n ≤ e.mintable denom b m := by
    rw [least, least', free.le_mintable]
  refine ⟨affordable backing nativeAmount, ?_, fun some => ?_⟩
  · -- What the caps mint is covered by what the quote takes, so it costs no more than that.
    have bounded : e.mintable denom backing nativeAmount ≤ 10 ^ 21 :=
      ((Nat.min_le_left _ _).trans (Nat.div_le_self _ _)).trans size
    obtain ⟨backingMost, nativeMost, most, least, least'⟩ :=
      free.mintCost_eq peg known loaded bounded
    obtain ⟨share, share'⟩ := free.le_mintable.mp covered
    have atMost := (least _).mpr share
    have room := (Coin.add_ok.mp adds).1
    refine ⟨_, most.trans (bind_ok.mpr ⟨minted, counts, bind_ok.mpr
      ⟨_, Coin.add_ok.mpr ⟨by omega, rfl⟩, rfl⟩⟩), atMost.trans within,
      ((least' _).mpr share').trans within'⟩
  · refine (free.mintQuote_cost peg known loaded some few least least' counts' adds').imp_right ?_
    rintro ⟨failed, full⟩
    refine ⟨?_, failed, records, loaded, full⟩
    -- Within the caps the counter would have taken even more.
    by_contra affords
    obtain ⟨less, less'⟩ := (affordable backing nativeAmount).mpr (Nat.not_lt.mp affords)
    have smaller := e.mintable_mono denom less less'
    obtain ⟨⟨-, -, room⟩, -⟩ := SignedCoin.move_ok.mp counts
    omega

/-- An engine at a backing ratio and two prices, with one asset that has neither fees nor ceilings,
while minting is allowed. -/
def mintDesk (ratio backingPrice nativePrice : Decimal) : Engine :=
  (fresh { Params.initial with backingRatio := ratio } .initial).run
    [.registerBacking
        { denom := "usdc"
          enabled := true
          maxBacking := none
          maxStableMint := none
          mintFee := none
          burnFee := none
          buybackFee := none
          rebackFee := none },
      .setRate "usdc" backingPrice, .setRate nativeDenom nativePrice,
      .setRate stableDenom (percent 105)]

/-- Neither leg comes out even: 1000 dollars mint 1957 units, and 1900 units cost 971 of them. -/
theorem mintQuote_mintCost_inverse_mintDesk :
    let e := mintDesk (percent 70) (percent 137) (percent 3)
    let backingMax : Coin := ⟨"usdc", 1000⟩
    let nativeMax : Coin := ⟨nativeDenom, 20000⟩
    let mintOut : Coin := ⟨stableDenom, 1900⟩
    let q : MintQuote :=
      ⟨⟨"usdc", 1000⟩, ⟨nativeDenom, 19572⟩, ⟨stableDenom, 1957⟩, ⟨stableDenom, 0⟩⟩
    let c : MintCost := ⟨⟨"usdc", 971⟩, ⟨nativeDenom, 19000⟩, ⟨stableDenom, 0⟩⟩
    let again : MintQuote :=
      ⟨⟨"usdc", 971⟩, ⟨nativeDenom, 19000⟩, ⟨stableDenom, 1900⟩, ⟨stableDenom, 0⟩⟩
    e.mintQuote backingMax nativeMax false = .ok q ∧ e.mintCost mintOut "usdc" false = .ok c ∧
      e.mintQuote c.backingIn c.nativeIn false = .ok again ∧
      (c.backingIn.amount ≤ backingMax.amount ∧ c.nativeIn.amount ≤ nativeMax.amount ↔
        mintOut.amount ≤ q.mintOut.amount) := by
  intro e backingMax nativeMax mintOut q c again
  have free : e.FreeMint "usdc" := by decide +kernel
  have quoted : e.mintQuote backingMax nativeMax false = .ok q := by decide +kernel
  have costed : e.mintCost mintOut "usdc" false = .ok c := by decide +kernel
  have retaken : e.mintQuote c.backingIn c.nativeIn false = .ok again := by decide +kernel
  have inverse := mintQuote_mintCost_inverse free ⟨by decide, by decide⟩ ⟨by decide, by decide⟩
    (by decide) quoted costed
  exact ⟨quoted, costed, retaken, inverse.1⟩

/-- The same engine with all but two of the units minted that the pool's counter can hold. -/
def fullDesk : Engine :=
  let desk := mintDesk (percent 50) (percent 75) (percent 75)
  { desk with
    store := desk.store.setBackingPool
      ⟨.zero "usdc", ⟨stableDenom, counterBound - 3⟩, .zero nativeDenom⟩ }

/-- Two units cost two coins of each kind, which would mint three, and the counter holds only two:
what the cost would mint is not always minted. -/
theorem fullDesk_refuses :
    let backingMax : Coin := ⟨"usdc", 1⟩
    let nativeMax : Coin := ⟨nativeDenom, 1⟩
    let q : MintQuote := ⟨⟨"usdc", 1⟩, ⟨nativeDenom, 1⟩, ⟨stableDenom, 1⟩, ⟨stableDenom, 0⟩⟩
    let c : MintCost := ⟨⟨"usdc", 2⟩, ⟨nativeDenom, 2⟩, ⟨stableDenom, 0⟩⟩
    fullDesk.FreeMint "usdc" ∧ fullDesk.mintQuote backingMax nativeMax false = .ok q ∧
      fullDesk.mintCost ⟨stableDenom, 2⟩ "usdc" false = .ok c ∧
      fullDesk.mintQuote c.backingIn c.nativeIn false = .error (.rejected .overflow) := by
  intro backingMax nativeMax q c
  decide +kernel

end Engine

end Stablecoin
