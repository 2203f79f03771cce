import Stablecoin.Proofs.Result
import Stablecoin.Swap.Buyback
import Stablecoin.Swap.Mint
import Stablecoin.Swap.Reback

/-!
# What the quotes compute

The amounts that each swap pays in and out, opened into the steps that led to them.
-/
namespace Stablecoin

namespace Engine

variable {e : Engine}

/-- The records of a backing asset are read from the store. -/
theorem backing_ok {denom : Denom} {r : BackingRecords} (found : e.backing denom = .ok r) :
    e.store.backingTotal = some r.total ∧ e.store.backingPools.get? denom = some r.pool := by
  unfold backing at found
  split at found
  next total pool foundTotal foundPool =>
    cases pure_ok.mp found
    exact ⟨foundTotal, foundPool⟩
  next => simp at found

theorem mintQuote_ok {backingMax nativeMax : Coin} {fullBacking : Bool} {q : MintQuote}
    (quoted : e.mintQuote backingMax nativeMax fullBacking = .ok q) :
    nativeMax.denom = nativeDenom ∧ e.requireMintPrice = .ok () ∧
      ∃ params backingPrice nativePrice backingMaxValue nativeMaxValue value backingIn nativeIn
        mintTotal records stableMinted backing mintFee,
      e.backingParams backingMax.denom = .ok params ∧
      e.price backingMax.denom = .ok backingPrice ∧ e.price nativeDenom = .ok nativePrice ∧
      backingMax.worth backingPrice = .ok backingMaxValue ∧
      nativeMax.worth nativePrice = .ok nativeMaxValue ∧
      mintWithin (Mix.of e.store.params.backingRatio fullBacking) backingPrice nativePrice
        backingMax nativeMax backingMaxValue nativeMaxValue = .ok (value, backingIn, nativeIn) ∧
      value.payOutAt pegTarget = .ok mintTotal ∧ e.backing backingMax.denom = .ok records ∧
      records.pool.stableMinted.add mintTotal = .ok stableMinted ∧
      params.requireMintCeiling stableMinted = .ok () ∧
      records.pool.backing.add backingIn = .ok backing ∧
      params.requireBackingCeiling backing = .ok () ∧
      (Coin.mk stableDenom mintTotal).fee params.mintFee = .ok mintFee ∧
      mintFee.amount ≤ mintTotal ∧
      q = ⟨⟨backingMax.denom, backingIn⟩, ⟨nativeDenom, nativeIn⟩,
        ⟨stableDenom, mintTotal - mintFee.amount⟩, mintFee⟩ := by
  simp only [mintQuote, bind_ok, Coin.requireDenom_ok] at quoted
  obtain ⟨_, native, _, peg, params, known, backingPrice, backingPriced, nativePrice, nativePriced,
    backingMaxValue, backingValued, nativeMaxValue, nativeValued, ⟨value, backingIn, nativeIn⟩,
    legs, mintTotal, total, records, loaded, rest⟩ := quoted
  -- Sums and differences are opened only when the amounts in them have names.
  simp only [Coin.sub_ok, pure_ok] at rest
  obtain ⟨stableMinted, minted, _, mintCeiling, backing, added, _, backingCeiling, mintFee, charged,
    _, ⟨covered, rfl⟩, rfl⟩ := rest
  exact ⟨native, peg, params, backingPrice, nativePrice, backingMaxValue, nativeMaxValue, value,
    backingIn, nativeIn, mintTotal, records, stableMinted, backing, mintFee, known, backingPriced,
    nativePriced, backingValued, nativeValued, legs, total, loaded, minted, mintCeiling, added,
    backingCeiling, charged, covered, rfl⟩

theorem requireBackingHeld_ok {pool : BackingPool} {denom : Denom} {amount : Nat} {result : Unit} :
    e.requireBackingHeld pool denom amount = .ok result ↔
      amount ≤ pool.backing.amount ∧ amount ≤ e.moduleBalance denom := by
  simp only [requireBackingHeld, require_ok, Nat.le_min]

theorem burnQuote_ok {burnIn : Coin} {denom : Denom} {q : BurnQuote}
    (quoted : e.burnQuote burnIn denom = .ok q) :
    burnIn.denom = stableDenom ∧ e.requireBurnPrice = .ok () ∧
      ∃ params backingPrice nativePrice burnFee value backingOut nativeOut records,
      e.backingParams denom = .ok params ∧ e.price denom = .ok backingPrice ∧
      e.price nativeDenom = .ok nativePrice ∧ burnIn.fee params.burnFee = .ok burnFee ∧
      burnFee.amount ≤ burnIn.amount ∧
      (Coin.mk burnIn.denom (burnIn.amount - burnFee.amount)).worth pegTarget = .ok value ∧
      burnOut (Mix.of e.store.params.backingRatio false) backingPrice nativePrice value
        = .ok (backingOut, nativeOut) ∧
      e.backing denom = .ok records ∧ backingOut ≤ records.pool.backing.amount ∧
      backingOut ≤ e.moduleBalance denom ∧
      q = ⟨⟨denom, backingOut⟩, ⟨nativeDenom, nativeOut⟩, burnFee⟩ := by
  simp only [burnQuote, bind_ok, Coin.requireDenom_ok, requireBackingHeld_ok, Coin.sub_ok,
    pure_ok] at quoted
  obtain ⟨_, stable, _, peg, params, known, backingPrice, backingPriced, nativePrice, nativePriced,
    burnFee, charged, _, ⟨covered, rfl⟩, value, valued, ⟨backingOut, nativeOut⟩, legs, records,
    loaded, _, ⟨pooled, held⟩, rfl⟩ := quoted
  exact ⟨stable, peg, params, backingPrice, nativePrice, burnFee, value, backingOut, nativeOut,
    records, known, backingPriced, nativePriced, charged, covered, valued, legs, loaded, pooled,
    held, rfl⟩

theorem buybackQuote_ok {nativeIn : Coin} {denom : Denom} {q : BuybackQuote}
    (quoted : e.buybackQuote nativeIn denom = .ok q) :
    nativeIn.denom = nativeDenom ∧
      ∃ params backingPrice nativePrice excess value total records buybackFee,
      e.backingParams denom = .ok params ∧ e.price denom = .ok backingPrice ∧
      e.price nativeDenom = .ok nativePrice ∧ e.excessBacking = .ok excess ∧
      nativeIn.worth nativePrice = .ok value ∧ requireSurplus value excess = .ok () ∧
      value.payOutAt backingPrice = .ok total ∧ e.backing denom = .ok records ∧
      total ≤ records.pool.backing.amount ∧ total ≤ e.moduleBalance denom ∧
      (Coin.mk denom total).fee params.buybackFee = .ok buybackFee ∧ buybackFee.amount ≤ total ∧
      q = ⟨⟨denom, total - buybackFee.amount⟩, buybackFee⟩ := by
  simp only [buybackQuote, bind_ok, Coin.requireDenom_ok, requireBackingHeld_ok, Coin.sub_ok,
    pure_ok] at quoted
  obtain ⟨_, native, params, known, backingPrice, backingPriced, nativePrice, nativePriced, excess,
    surplus, value, valued, _, affordable, total, paid, records, loaded, _, ⟨pooled, held⟩,
    buybackFee, charged, _, ⟨covered, rfl⟩, rfl⟩ := quoted
  exact ⟨native, params, backingPrice, nativePrice, excess, value, total, records, buybackFee,
    known, backingPriced, nativePriced, surplus, valued, affordable, paid, loaded, pooled, held,
    charged, covered, rfl⟩

theorem rebackQuote_ok {backingIn : Coin} {q : RebackQuote}
    (quoted : e.rebackQuote backingIn = .ok q) :
    ∃ params backingPrice nativePrice records backing available value minted bonus rebackFee amount,
      e.backingParams backingIn.denom = .ok params ∧
      e.price backingIn.denom = .ok backingPrice ∧ e.price nativeDenom = .ok nativePrice ∧
      e.backing backingIn.denom = .ok records ∧
      records.pool.backing.add backingIn.amount = .ok backing ∧
      params.requireBackingCeiling backing = .ok () ∧
      e.availableReback nativePrice = .ok available ∧
      backingIn.worth backingPrice = .ok value ∧ value.payOutAt nativePrice = .ok minted ∧
      (Coin.mk nativeDenom minted).fee (some e.store.params.rebackBonus) = .ok bonus ∧
      (Coin.mk nativeDenom minted).fee params.rebackFee = .ok rebackFee ∧
      Decimal.ofAmount minted = .ok amount ∧ amount ≤ available ∧
      rebackFee.amount ≤ minted + bonus.amount ∧
      q = ⟨⟨nativeDenom, minted + bonus.amount - rebackFee.amount⟩, rebackFee⟩ := by
  simp only [rebackQuote, bind_ok, require_ok, Coin.toDecimal] at quoted
  obtain ⟨params, known, backingPrice, backingPriced, nativePrice, nativePriced, records, loaded,
    backing, added, _, ceiling, available, short, value, valued, minted, paid, rest⟩ := quoted
  -- Payout and fee are opened only when the gross mint has a name.
  simp only [Coin.add_ok, Coin.sub_ok, pure_ok] at rest
  obtain ⟨bonus, rewarded, rebackFee, charged, amount, counted, _, enough, _, ⟨_, rfl⟩, _,
    ⟨covered, rfl⟩, rfl⟩ := rest
  exact ⟨params, backingPrice, nativePrice, records, backing, available, value, minted, bonus,
    rebackFee, amount, known, backingPriced, nativePriced, loaded, added, ceiling, short, valued,
    paid, rewarded, charged, counted, enough, covered, rfl⟩

end Engine

end Stablecoin
