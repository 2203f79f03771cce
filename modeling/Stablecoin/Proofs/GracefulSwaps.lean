import Stablecoin.Engine.Query
import Stablecoin.Proofs.SwapValue
import Stablecoin.Proofs.Validated

/-!
# How swaps fail

The quotes and plans of the four swaps, and the surplus that two of them look at, are graceful in an
engine whose parameters have passed validation. Only the cost of selling backing relies on a sum
that validation does not keep in range: one more than the bonus.
-/
namespace Stablecoin.Engine

variable {e : Engine} {excused : Failure → Prop}

/-! ### The surplus -/

theorem addPoolValues_graceful {value : Decimal} (nonneg : 0 ≤ value.toRat)
    (pools : List BackingPool) :
    Graceful excused (fun sum => 0 ≤ sum.toRat) (e.addPoolValues value pools) := by
  induction pools generalizing value with
  | nil => exact .pure nonneg
  | cons pool rest ih =>
    rw [addPoolValues, List.foldlM_cons]
    refine Graceful.bind ?_ fun sum added => ih added
    exact (price_graceful _).bind fun _ positive =>
      (Coin.worth_graceful positive.le).bind fun _ worth => Decimal.add_graceful nonneg worth

theorem backingValue_graceful : Graceful excused (fun _ => True) e.backingValue :=
  (addPoolValues_graceful Decimal.toRat_zero.ge _).bind fun _ nonneg =>
    (Decimal.payOut_graceful nonneg).weaken

theorem requiredBacking_graceful (minted : Int) :
    Graceful excused (fun _ => True) (e.requiredBacking minted) :=
  (orOverflow_graceful _).bind fun _ _ => (orOverflow_graceful _).bind fun _ _ => .pure trivial

theorem excessBacking_graceful : Graceful excused (fun _ => True) e.excessBacking := by
  unfold excessBacking
  split
  next => exact reject_graceful rfl
  next =>
    exact (requiredBacking_graceful _).bind fun _ _ =>
      backingValue_graceful.bind fun _ _ => .pure trivial

theorem availableReback_graceful (nativePrice : Decimal) :
    Graceful excused (fun _ => True) (e.availableReback nativePrice) :=
  excessBacking_graceful.bind fun _ _ =>
    (orOverflow_graceful _).bind fun _ _ => (orOverflow_graceful _).weaken

theorem backingTotal_graceful : Graceful excused (fun _ => True) e.backingTotal :=
  backingValue_graceful.bind fun _ _ => .pure trivial

/-! ### Checks -/

theorem requireMintCeiling_graceful (params : BackingParams) (minted : SignedCoin) :
    Graceful excused (fun _ => True) (params.requireMintCeiling minted) := by
  unfold BackingParams.requireMintCeiling
  split
  next => exact (require_graceful rfl).weaken
  next => exact .pure trivial

theorem requireBackingCeiling_graceful (params : BackingParams) (backing : Coin) :
    Graceful excused (fun _ => True) (params.requireBackingCeiling backing) := by
  unfold BackingParams.requireBackingCeiling
  split
  next => exact (require_graceful rfl).weaken
  next => exact .pure trivial

theorem requireSurplus_graceful (value : Decimal) (excess : Int) :
    Graceful excused (fun _ => True) (requireSurplus value excess) :=
  (orOverflow_graceful _).bind fun _ _ => (require_graceful rfl).weaken

theorem requireBackingHeld_graceful (pool : BackingPool) (denom : Denom) (amount : Nat) :
    Graceful excused (fun _ => amount ≤ pool.backing.amount)
      (e.requireBackingHeld pool denom amount) :=
  (require_graceful rfl).mono fun _ held => held.trans (Nat.min_le_left _ _)

theorem requireAtLeast_graceful (actual minimum : Coin) :
    Graceful excused (fun _ => True) (requireAtLeast actual minimum) :=
  (require_graceful rfl).weaken

/-! ### Splitting a value -/

section Mixes

variable {ratio backingPrice nativePrice value : Decimal} {forced : Bool}
  (positive : 0 < backingPrice.toRat) (positive' : 0 < nativePrice.toRat)
include positive positive'

theorem mintIn_graceful (nonneg : 0 ≤ value.toRat) :
    Graceful excused (fun _ => True)
      (mintIn (.of ratio forced) backingPrice nativePrice value) := by
  cases mixed : Mix.of ratio forced with
  | fullBacking => exact (Decimal.payInAt_graceful nonneg positive).bind fun _ _ => .pure trivial
  | algorithmic => exact (Decimal.payInAt_graceful nonneg positive').bind fun _ _ => .pure trivial
  | fractional share =>
    obtain ⟨above, below⟩ := mix_fractional mixed
    exact (Decimal.mul_graceful nonneg above.le).bind fun _ part =>
      (Decimal.payInAt_graceful part positive).bind fun _ _ =>
        (Decimal.one_subTrusted_graceful above.le below.le).bind fun _ rest =>
          (Decimal.mul_graceful nonneg rest).bind fun _ part' =>
            (Decimal.payInAt_graceful part' positive').bind fun _ _ => .pure trivial

theorem burnOut_graceful (nonneg : 0 ≤ value.toRat) :
    Graceful excused (fun _ => True)
      (burnOut (.of ratio forced) backingPrice nativePrice value) := by
  cases mixed : Mix.of ratio forced with
  | fullBacking => exact (Decimal.payOutAt_graceful nonneg positive).bind fun _ _ => .pure trivial
  | algorithmic => exact (Decimal.payOutAt_graceful nonneg positive').bind fun _ _ => .pure trivial
  | fractional share =>
    obtain ⟨above, below⟩ := mix_fractional mixed
    exact (Decimal.mul_graceful nonneg above.le).bind fun _ part =>
      (Decimal.payOutAt_graceful part positive).bind fun _ _ =>
        (Decimal.one_subTrusted_graceful above.le below.le).bind fun _ rest =>
          (Decimal.mul_graceful nonneg rest).bind fun _ part' =>
            (Decimal.payOutAt_graceful part' positive').bind fun _ _ => .pure trivial

variable {backingMax nativeMax : Coin} {backingMaxValue nativeMaxValue : Decimal}
  (nonneg : 0 ≤ backingMaxValue.toRat) (nonneg' : 0 ≤ nativeMaxValue.toRat)
include nonneg nonneg'

/-- The value of a mint within two caps is not negative. -/
theorem mintWithin_graceful :
    Graceful excused (fun legs => 0 ≤ legs.1.toRat)
      (mintWithin (.of ratio forced) backingPrice nativePrice backingMax nativeMax backingMaxValue
        nativeMaxValue) := by
  cases mixed : Mix.of ratio forced with
  | fullBacking => exact .pure nonneg
  | algorithmic => exact .pure nonneg'
  | fractional share =>
    obtain ⟨above, below⟩ := mix_fractional mixed
    refine (Decimal.div_graceful nonneg above.le).bind fun byBacking backed =>
      (Decimal.one_subTrusted_graceful above.le below.le).bind fun _ rest =>
        (Decimal.div_graceful nonneg' rest).bind fun byNative limited => ?_
    split
    next =>
      exact (Decimal.one_subTrusted_graceful above.le below.le).bind fun _ rest =>
        (Decimal.mul_graceful backed rest).bind fun _ part =>
          (Decimal.payInAt_graceful part positive').bind fun _ _ => .pure backed
    next =>
      exact (Decimal.mul_graceful limited above.le).bind fun _ part =>
        (Decimal.payInAt_graceful part positive).bind fun _ _ => .pure limited

/-- The value of a burn within two caps is not negative. -/
theorem burnWithin_graceful :
    Graceful excused (fun legs => 0 ≤ legs.1.toRat)
      (burnWithin (.of ratio forced) backingPrice nativePrice backingMax nativeMax backingMaxValue
        nativeMaxValue) := by
  cases mixed : Mix.of ratio forced with
  | fullBacking => exact .pure nonneg
  | algorithmic => exact .pure nonneg'
  | fractional share =>
    obtain ⟨above, below⟩ := mix_fractional mixed
    refine (Decimal.div_graceful nonneg above.le).bind fun byBacking backed =>
      (Decimal.one_subTrusted_graceful above.le below.le).bind fun _ rest =>
        (Decimal.div_graceful nonneg' rest).bind fun byNative limited => ?_
    split
    next =>
      exact (Decimal.one_subTrusted_graceful above.le below.le).bind fun _ rest =>
        (Decimal.mul_graceful backed rest).bind fun _ part =>
          (Decimal.payOutAt_graceful part positive').bind fun _ _ => .pure backed
    next =>
      exact (Decimal.mul_graceful limited above.le).bind fun _ part =>
        (Decimal.payOutAt_graceful part positive).bind fun _ _ => .pure limited

end Mixes

/-! ### The multiplier of a sale -/

/-- The multiplier is positive: one and the bonus exceed every valid fee. The sum is out of range
for the largest bonus only. -/
theorem rebackMultiplier_graceful {bonus fee : Decimal} (nonneg : 0 ≤ bonus.toRat)
    (low : 0 ≤ fee.toRat) (high : fee.toRat < 1)
    (inRange : bonus ≠ .largest ∨ excused (.faulted .additionOverflowed)) :
    Graceful excused (fun multiplier => 0 < multiplier.toRat) (rebackMultiplier bonus fee) := by
  have summed := inRange.imp_left fun other => (Decimal.one_add?_eq_none nonneg).not.mpr other
  refine (Decimal.addTrusted_graceful summed).bind fun sum added => ?_
  have above := Decimal.lt_one_add? nonneg high added
  refine (Decimal.subTrusted_graceful low above.le).bind fun multiplier left => ?_
  have positive := Decimal.sub?_pos above left.1
  rw [if_neg]
  · exact .pure positive
  · rw [Decimal.le_iff_toRat, Decimal.toRat_zero]
    exact not_le.mpr positive

/-! ### Minting and burning -/

section Quotes

variable (validated : e.store.Validated)
include validated

theorem mintCost_graceful (mintOut : Coin) (denom : Denom) (fullBacking : Bool) :
    Graceful excused (fun _ => True) (e.mintCost mintOut denom fullBacking) := by
  refine (Coin.requireDenom_graceful _).bind fun _ _ => ?_
  refine requireMintPrice_graceful.bind fun _ _ => ?_
  refine (backingParams_graceful validated denom).bind fun params rates => ?_
  refine (price_graceful denom).bind fun backingPrice positive => ?_
  refine (price_graceful nativeDenom).bind fun nativePrice positive' => ?_
  refine (Coin.fee_graceful rates.mintFee.nonneg).bind fun mintFee _ => ?_
  refine (Coin.add_graceful _).bind fun mintTotal _ => ?_
  refine (Coin.worth_graceful pegTarget_pos.le).bind fun value nonneg => ?_
  refine (backing_graceful denom).bind fun records _ => ?_
  refine (SignedCoin.add_graceful _).bind fun minted _ => ?_
  refine (requireMintCeiling_graceful params minted).bind fun _ _ => ?_
  refine (mintIn_graceful positive positive' nonneg).bind fun _ _ => ?_
  refine (Coin.add_graceful _).bind fun backing _ => ?_
  exact (requireBackingCeiling_graceful params backing).bind fun _ _ => .pure trivial

theorem mintQuote_graceful (backingMax nativeMax : Coin) (fullBacking : Bool) :
    Graceful excused (fun _ => True) (e.mintQuote backingMax nativeMax fullBacking) := by
  refine (Coin.requireDenom_graceful _).bind fun _ _ => ?_
  refine requireMintPrice_graceful.bind fun _ _ => ?_
  refine (backingParams_graceful validated _).bind fun params rates => ?_
  refine (price_graceful _).bind fun backingPrice positive => ?_
  refine (price_graceful nativeDenom).bind fun nativePrice positive' => ?_
  refine (Coin.worth_graceful positive.le).bind fun _ nonneg => ?_
  refine (Coin.worth_graceful positive'.le).bind fun _ nonneg' => ?_
  refine (mintWithin_graceful positive positive' nonneg nonneg').bind fun legs worth => ?_
  refine (Decimal.payOutAt_graceful worth pegTarget_pos).bind fun mintTotal _ => ?_
  refine (backing_graceful _).bind fun records _ => ?_
  refine (SignedCoin.add_graceful _).bind fun minted _ => ?_
  refine (requireMintCeiling_graceful params minted).bind fun _ _ => ?_
  refine (Coin.add_graceful _).bind fun backing _ => ?_
  refine (requireBackingCeiling_graceful params backing).bind fun _ _ => ?_
  refine (Coin.fee_graceful rates.mintFee.nonneg).bind fun mintFee covered => ?_
  -- The fee is a share of the mint that it comes out of.
  exact (Coin.sub_graceful (.inl (covered rates.mintFee.le_one))).bind fun _ _ => .pure trivial

theorem burnCost_graceful (backingMax nativeMax : Coin) :
    Graceful excused (fun _ => True) (e.burnCost backingMax nativeMax) := by
  have rates := Params.validate_rates validated.params
  refine (Coin.requireDenom_graceful _).bind fun _ _ => ?_
  refine (requireBurnPrice_graceful rates).bind fun _ _ => ?_
  refine (backingParams_graceful validated _).bind fun params fees => ?_
  refine (price_graceful _).bind fun backingPrice positive => ?_
  refine (price_graceful nativeDenom).bind fun nativePrice positive' => ?_
  refine (Coin.worth_graceful positive.le).bind fun _ nonneg => ?_
  refine (Coin.worth_graceful positive'.le).bind fun _ nonneg' => ?_
  refine (burnWithin_graceful positive positive' nonneg nonneg').bind fun legs worth => ?_
  refine (require_graceful rfl).bind fun _ _ => ?_
  refine (Decimal.div_graceful worth pegTarget_pos.le).bind fun _ units => ?_
  refine (feeComplement_graceful _ fees.burnFee).bind fun _ complement => ?_
  refine (Decimal.div_graceful units complement.le).bind fun _ gross => ?_
  refine (Decimal.mul_graceful gross fees.burnFee.getD.1).bind fun _ fee => ?_
  refine (Decimal.payIn_graceful gross).bind fun _ _ => ?_
  exact (Decimal.charge_graceful fee).bind fun _ _ => .pure trivial

theorem burnQuote_graceful (burnIn : Coin) (denom : Denom) :
    Graceful excused (fun _ => True) (e.burnQuote burnIn denom) := by
  have rates := Params.validate_rates validated.params
  refine (Coin.requireDenom_graceful _).bind fun _ _ => ?_
  refine (requireBurnPrice_graceful rates).bind fun _ _ => ?_
  refine (backingParams_graceful validated _).bind fun params fees => ?_
  refine (price_graceful _).bind fun backingPrice positive => ?_
  refine (price_graceful nativeDenom).bind fun nativePrice positive' => ?_
  refine (Coin.fee_graceful fees.burnFee.nonneg).bind fun burnFee covered => ?_
  -- The fee is a share of what is burned.
  refine (Coin.sub_graceful (.inl (covered fees.burnFee.le_one))).bind fun rest _ => ?_
  refine (Coin.worth_graceful pegTarget_pos.le).bind fun value nonneg => ?_
  refine (burnOut_graceful positive positive' nonneg).bind fun legs _ => ?_
  refine (backing_graceful _).bind fun records _ => ?_
  exact (requireBackingHeld_graceful _ _ _).bind fun _ _ => .pure trivial

/-! ### Buying and selling backing -/

theorem buybackCost_graceful (backingOut : Coin) :
    Graceful excused (fun _ => True) (e.buybackCost backingOut) := by
  refine (backingParams_graceful validated _).bind fun params fees => ?_
  refine (price_graceful _).bind fun backingPrice positive => ?_
  refine (price_graceful nativeDenom).bind fun nativePrice positive' => ?_
  refine excessBacking_graceful.bind fun excess _ => ?_
  refine (Decimal.ofAmount_graceful _).bind fun wanted counted => ?_
  refine (feeComplement_graceful _ fees.buybackFee).bind fun complement above => ?_
  refine (Decimal.payOutAt_graceful (counted ▸ Nat.cast_nonneg _) above).bind fun total _ => ?_
  refine (Coin.worth_graceful positive.le).bind fun value nonneg => ?_
  refine (requireSurplus_graceful value excess).bind fun _ _ => ?_
  refine (backing_graceful _).bind fun records _ => ?_
  refine (requireBackingHeld_graceful _ _ _).bind fun _ _ => ?_
  refine (Decimal.payInAt_graceful nonneg positive').bind fun _ _ => ?_
  refine (Coin.worth_graceful fees.buybackFee.getD.1).bind fun _ fee => ?_
  exact (Decimal.charge_graceful fee).bind fun _ _ => .pure trivial

theorem buybackQuote_graceful (nativeIn : Coin) (denom : Denom) :
    Graceful excused (fun _ => True) (e.buybackQuote nativeIn denom) := by
  refine (Coin.requireDenom_graceful _).bind fun _ _ => ?_
  refine (backingParams_graceful validated _).bind fun params fees => ?_
  refine (price_graceful _).bind fun backingPrice positive => ?_
  refine (price_graceful nativeDenom).bind fun nativePrice positive' => ?_
  refine excessBacking_graceful.bind fun excess _ => ?_
  refine (Coin.worth_graceful positive'.le).bind fun value nonneg => ?_
  refine (requireSurplus_graceful value excess).bind fun _ _ => ?_
  refine (Decimal.payOutAt_graceful nonneg positive).bind fun total _ => ?_
  refine (backing_graceful _).bind fun records _ => ?_
  refine (requireBackingHeld_graceful _ _ _).bind fun _ _ => ?_
  refine (Coin.fee_graceful fees.buybackFee.nonneg).bind fun fee covered => ?_
  exact (Coin.sub_graceful (.inl (covered fees.buybackFee.le_one))).bind fun _ _ => .pure trivial

theorem rebackCost_graceful (nativeOut : Coin) (denom : Denom)
    (inRange : e.store.params.rebackBonus ≠ .largest ∨ excused (.faulted .additionOverflowed)) :
    Graceful excused (fun _ => True) (e.rebackCost nativeOut denom) := by
  have rates := Params.validate_rates validated.params
  refine (Coin.requireDenom_graceful _).bind fun _ _ => ?_
  refine (backingParams_graceful validated _).bind fun params fees => ?_
  obtain ⟨low, high⟩ := fees.rebackFee.getD
  refine (price_graceful _).bind fun backingPrice positive => ?_
  refine (price_graceful nativeDenom).bind fun nativePrice positive' => ?_
  refine (backing_graceful _).bind fun records _ => ?_
  refine (availableReback_graceful _).bind fun available _ => ?_
  refine (rebackMultiplier_graceful rates.rebackBonus low high inRange).bind
    fun multiplier above => ?_
  refine (Decimal.ofAmount_graceful _).bind fun amount counted => ?_
  refine (Decimal.div_graceful (counted ▸ Nat.cast_nonneg _) above.le).bind fun minted nonneg => ?_
  refine (Decimal.mul_graceful nonneg positive'.le).bind fun value worth => ?_
  refine (Decimal.payInAt_graceful worth positive).bind fun backingIn _ => ?_
  refine (Decimal.mul_graceful nonneg low).bind fun part feeNonneg => ?_
  refine (Decimal.charge_graceful feeNonneg).bind fun rebackFee _ => ?_
  refine (Coin.add_graceful _).bind fun backing _ => ?_
  refine (requireBackingCeiling_graceful params backing).bind fun _ _ => ?_
  exact (require_graceful rfl).bind fun _ _ => .pure trivial

theorem rebackQuote_graceful (backingIn : Coin) :
    Graceful excused (fun _ => True) (e.rebackQuote backingIn) := by
  have rates := Params.validate_rates validated.params
  refine (backingParams_graceful validated _).bind fun params fees => ?_
  refine (price_graceful _).bind fun backingPrice positive => ?_
  refine (price_graceful nativeDenom).bind fun nativePrice positive' => ?_
  refine (backing_graceful _).bind fun records _ => ?_
  refine (Coin.add_graceful _).bind fun backing _ => ?_
  refine (requireBackingCeiling_graceful params backing).bind fun _ _ => ?_
  refine (availableReback_graceful _).bind fun available _ => ?_
  refine (Coin.worth_graceful positive.le).bind fun value nonneg => ?_
  refine (Decimal.payOutAt_graceful nonneg positive').bind fun minted _ => ?_
  refine (Coin.fee_graceful (by simpa using rates.rebackBonus)).bind fun bonus _ => ?_
  refine (Coin.fee_graceful fees.rebackFee.nonneg).bind fun fee covered => ?_
  refine (Decimal.ofAmount_graceful _).bind fun amount _ => ?_
  refine (require_graceful rfl).bind fun _ _ => ?_
  refine (Coin.add_graceful _).bind fun gross summed => ?_
  -- The fee is a share of what is minted, to which the bonus only adds.
  have within : fee.amount ≤ gross.amount := by
    rw [summed]
    exact (covered fees.rebackFee.le_one).trans (Nat.le_add_right _ _)
  exact (Coin.sub_graceful (.inl within)).bind fun _ _ => .pure trivial

/-! ### Plans -/

variable (sender : Principal)

theorem planMint_graceful (r : MintRequest) :
    Graceful excused (fun _ => True) (e.planMint sender r) := by
  refine (Coin.requireDenom_graceful _).bind fun _ _ => ?_
  refine (mintQuote_graceful validated _ _ _).bind fun q _ => ?_
  refine (requireAtLeast_graceful _ _).bind fun _ _ => ?_
  refine (Coin.add_graceful _).bind fun mintTotal _ => ?_
  refine (backing_graceful _).bind fun records _ => ?_
  refine (Coin.add_graceful _).bind fun _ _ => ?_
  refine (SignedCoin.add_graceful _).bind fun _ _ => ?_
  refine (SignedCoin.add_graceful _).bind fun _ _ => ?_
  refine (SignedCoin.add_graceful _).bind fun _ _ => ?_
  exact (SignedCoin.add_graceful _).bind fun _ _ => .pure trivial

theorem planBurn_graceful (r : BurnRequest) :
    Graceful excused (fun _ => True) (e.planBurn sender r) := by
  refine (Coin.requireDenom_graceful _).bind fun _ _ => ?_
  refine (burnQuote_graceful validated _ _).returned.bind fun q quoted => ?_
  obtain ⟨-, -, _, _, _, _, _, _, _, quotedRecords, -, -, -, -, covered, -, -, held, pooled, -,
    rfl⟩ := burnQuote_ok quoted.1
  refine (requireAtLeast_graceful _ _).bind fun _ _ => ?_
  refine (requireAtLeast_graceful _ _).bind fun _ _ => ?_
  refine (Coin.sub_graceful (.inl covered)).bind fun burned _ => ?_
  refine (backing_graceful _).bind fun records loaded => ?_
  -- The pool is the one that the quote was checked against.
  cases held.symm.trans loaded
  refine (Coin.sub_graceful (.inl pooled)).bind fun _ _ => ?_
  refine (SignedCoin.sub_graceful _).bind fun _ _ => ?_
  refine (SignedCoin.sub_graceful _).bind fun _ _ => ?_
  refine (SignedCoin.sub_graceful _).bind fun _ _ => ?_
  exact (SignedCoin.sub_graceful _).bind fun _ _ => .pure trivial

theorem planBuyback_graceful (r : BuybackRequest) :
    Graceful excused (fun _ => True) (e.planBuyback sender r) := by
  refine (buybackQuote_graceful validated _ _).returned.bind fun q quoted => ?_
  obtain ⟨-, _, _, _, _, _, total, quotedRecords, fee, -, -, -, -, -, -, -, held, pooled, -, -,
    covered, rfl⟩ := buybackQuote_ok quoted.1
  refine (requireAtLeast_graceful _ _).bind fun _ _ => ?_
  refine (backing_graceful _).bind fun records loaded => ?_
  cases held.symm.trans loaded
  -- Payout and fee are the total that the pool was checked to hold.
  refine (Coin.sub_graceful (.inl ?_)).bind fun rest left => ?_
  · exact (Nat.sub_le _ _).trans pooled
  refine (Coin.sub_graceful (.inl ?_)).bind fun _ _ => ?_
  · rw [left]
    dsimp only
    omega
  refine (SignedCoin.add_graceful _).bind fun _ _ => ?_
  exact (SignedCoin.add_graceful _).bind fun _ _ => .pure trivial

theorem planReback_graceful (r : RebackRequest) :
    Graceful excused (fun _ => True) (e.planReback sender r) := by
  refine (Coin.requireDenom_graceful _).bind fun _ _ => ?_
  refine (rebackQuote_graceful validated _).bind fun q _ => ?_
  refine (requireAtLeast_graceful _ _).bind fun _ _ => ?_
  refine (Coin.add_graceful _).bind fun minted _ => ?_
  refine (backing_graceful _).bind fun records _ => ?_
  refine (Coin.add_graceful _).bind fun _ _ => ?_
  refine (SignedCoin.sub_graceful _).bind fun _ _ => ?_
  exact (SignedCoin.sub_graceful _).bind fun _ _ => .pure trivial

end Quotes

end Stablecoin.Engine
