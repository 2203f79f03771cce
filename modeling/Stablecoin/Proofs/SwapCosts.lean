import Stablecoin.Proofs.SwapQuotes

/-!
# What the costs compute

The amounts that each swap takes for the payout that is wanted, opened into the steps that led to
them.
-/
namespace Stablecoin

namespace Engine

variable {e : Engine}

theorem mintCost_ok {mintOut : Coin} {denom : Denom} {fullBacking : Bool} {c : MintCost}
    (quoted : e.mintCost mintOut denom fullBacking = .ok c) :
    mintOut.denom = stableDenom ∧ e.requireMintPrice = .ok () ∧
      ∃ params backingPrice nativePrice mintFee value records stableMinted backingIn nativeIn
        backing,
      e.backingParams denom = .ok params ∧ e.price denom = .ok backingPrice ∧
      e.price nativeDenom = .ok nativePrice ∧ mintOut.fee params.mintFee = .ok mintFee ∧
      mintOut.amount + mintFee.amount < amountBound ∧
      (Coin.mk mintOut.denom (mintOut.amount + mintFee.amount)).worth pegTarget = .ok value ∧
      e.backing denom = .ok records ∧
      records.pool.stableMinted.add (mintOut.amount + mintFee.amount) = .ok stableMinted ∧
      params.requireMintCeiling stableMinted = .ok () ∧
      mintIn (Mix.of e.store.params.backingRatio fullBacking) backingPrice nativePrice value
        = .ok (backingIn, nativeIn) ∧
      records.pool.backing.add backingIn = .ok backing ∧
      params.requireBackingCeiling backing = .ok () ∧
      c = ⟨⟨denom, backingIn⟩, ⟨nativeDenom, nativeIn⟩, mintFee⟩ := by
  simp only [mintCost, bind_ok, Coin.requireDenom_ok] at quoted
  obtain ⟨_, stable, _, peg, params, known, backingPrice, backingPriced, nativePrice, nativePriced,
    mintFee, charged, _, total, value, valued, records, loaded, stableMinted, minted, _,
    mintCeiling, ⟨backingIn, nativeIn⟩, legs, backing, added, _, backingCeiling, answered⟩ := quoted
  obtain ⟨small, rfl⟩ := Coin.add_ok.mp total
  exact ⟨stable, peg, params, backingPrice, nativePrice, mintFee, value, records, stableMinted,
    backingIn, nativeIn, backing, known, backingPriced, nativePriced, charged, small, valued,
    loaded, minted, mintCeiling, legs, added, backingCeiling, (pure_ok.mp answered).symm⟩

theorem burnCost_ok {backingMax nativeMax : Coin} {c : BurnCost}
    (quoted : e.burnCost backingMax nativeMax = .ok c) :
    nativeMax.denom = nativeDenom ∧ e.requireBurnPrice = .ok () ∧
      ∃ params backingPrice nativePrice backingMaxValue nativeMaxValue value backingOut nativeOut
        units complement gross feeValue burnIn burnFee,
      e.backingParams backingMax.denom = .ok params ∧
      e.price backingMax.denom = .ok backingPrice ∧ e.price nativeDenom = .ok nativePrice ∧
      backingMax.worth backingPrice = .ok backingMaxValue ∧
      nativeMax.worth nativePrice = .ok nativeMaxValue ∧
      burnWithin (Mix.of e.store.params.backingRatio false) backingPrice nativePrice backingMax
        nativeMax backingMaxValue nativeMaxValue = .ok (value, backingOut, nativeOut) ∧
      backingOut ≤ e.moduleBalance backingMax.denom ∧ value.div pegTarget = .ok units ∧
      feeComplement "burn_fee" params.burnFee = .ok complement ∧
      units.div complement = .ok gross ∧ gross.mul (params.burnFee.getD 0) = .ok feeValue ∧
      gross.payIn = .ok burnIn ∧ feeValue.charge = .ok burnFee ∧
      c = ⟨⟨stableDenom, burnIn⟩, ⟨backingMax.denom, backingOut⟩, ⟨nativeDenom, nativeOut⟩,
        ⟨stableDenom, burnFee⟩⟩ := by
  simp only [burnCost, bind_ok, Coin.requireDenom_ok, require_ok, pure_ok] at quoted
  obtain ⟨_, native, _, peg, params, known, backingPrice, backingPriced, nativePrice, nativePriced,
    backingMaxValue, backingValued, nativeMaxValue, nativeValued, ⟨value, backingOut, nativeOut⟩,
    legs, _, held, units, converted, complement, left, gross, grossed, feeValue, shared, burnIn,
    paid, burnFee, charged, rfl⟩ := quoted
  exact ⟨native, peg, params, backingPrice, nativePrice, backingMaxValue, nativeMaxValue, value,
    backingOut, nativeOut, units, complement, gross, feeValue, burnIn, burnFee, known,
    backingPriced, nativePriced, backingValued, nativeValued, legs, held, converted, left, grossed,
    shared, paid, charged, rfl⟩

theorem buybackCost_ok {backingOut : Coin} {c : BuybackCost}
    (quoted : e.buybackCost backingOut = .ok c) :
    ∃ params backingPrice nativePrice excess wanted complement total value records nativeIn feeValue
      buybackFee,
      e.backingParams backingOut.denom = .ok params ∧
      e.price backingOut.denom = .ok backingPrice ∧ e.price nativeDenom = .ok nativePrice ∧
      e.excessBacking = .ok excess ∧ backingOut.toDecimal = .ok wanted ∧
      feeComplement "buyback_fee" params.buybackFee = .ok complement ∧
      wanted.payOutAt complement = .ok total ∧
      (Coin.mk backingOut.denom total).worth backingPrice = .ok value ∧
      requireSurplus value excess = .ok () ∧ e.backing backingOut.denom = .ok records ∧
      total ≤ records.pool.backing.amount ∧ total ≤ e.moduleBalance backingOut.denom ∧
      value.payInAt nativePrice = .ok nativeIn ∧
      (Coin.mk backingOut.denom total).worth (params.buybackFee.getD 0) = .ok feeValue ∧
      feeValue.charge = .ok buybackFee ∧
      c = ⟨⟨nativeDenom, nativeIn⟩, ⟨backingOut.denom, buybackFee⟩⟩ := by
  simp only [buybackCost, bind_ok, requireBackingHeld_ok, pure_ok] at quoted
  obtain ⟨params, known, backingPrice, backingPriced, nativePrice, nativePriced, excess, surplus,
    wanted, counted, complement, left, total, grossed, value, valued, _, affordable, records,
    loaded, _, ⟨pooled, held⟩, nativeIn, paid, feeValue, shared, buybackFee, charged, rfl⟩ := quoted
  exact ⟨params, backingPrice, nativePrice, excess, wanted, complement, total, value, records,
    nativeIn, feeValue, buybackFee, known, backingPriced, nativePriced, surplus, counted, left,
    grossed, valued, affordable, loaded, pooled, held, paid, shared, charged, rfl⟩

theorem rebackCost_ok {nativeOut : Coin} {denom : Denom} {c : RebackCost}
    (quoted : e.rebackCost nativeOut denom = .ok c) :
    nativeOut.denom = nativeDenom ∧
      ∃ params backingPrice nativePrice records available multiplier wanted minted value backingIn
        feeValue rebackFee backing,
      e.backingParams denom = .ok params ∧ e.price denom = .ok backingPrice ∧
      e.price nativeDenom = .ok nativePrice ∧ e.backing denom = .ok records ∧
      e.availableReback nativePrice = .ok available ∧
      rebackMultiplier e.store.params.rebackBonus (params.rebackFee.getD 0) = .ok multiplier ∧
      nativeOut.toDecimal = .ok wanted ∧ wanted.div multiplier = .ok minted ∧
      minted.mul nativePrice = .ok value ∧ value.payInAt backingPrice = .ok backingIn ∧
      minted.mul (params.rebackFee.getD 0) = .ok feeValue ∧ feeValue.charge = .ok rebackFee ∧
      records.pool.backing.add backingIn = .ok backing ∧
      params.requireBackingCeiling backing = .ok () ∧ minted ≤ available ∧
      c = ⟨⟨denom, backingIn⟩, ⟨nativeDenom, rebackFee⟩⟩ := by
  simp only [rebackCost, bind_ok, Coin.requireDenom_ok, require_ok, pure_ok] at quoted
  obtain ⟨_, native, params, known, backingPrice, backingPriced, nativePrice, nativePriced, records,
    loaded, available, short, multiplier, multiplied, wanted, counted, minted, divided, value,
    valued, backingIn, paid, feeValue, shared, rebackFee, charged, backing, added, _, ceiling, _,
    enough, rfl⟩ := quoted
  exact ⟨native, params, backingPrice, nativePrice, records, available, multiplier, wanted, minted,
    value, backingIn, feeValue, rebackFee, backing, known, backingPriced, nativePriced, loaded,
    short, multiplied, counted, divided, valued, paid, shared, charged, added, ceiling, enough, rfl⟩

end Engine

end Stablecoin
