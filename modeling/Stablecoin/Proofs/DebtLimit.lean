import Stablecoin.Proofs.LoanToValue
import Stablecoin.Proofs.Steps

/-!
# Debt within its limit

A loan or a withdrawal that succeeds leaves a position whose debt is within the limit of its
collateral, which is the collateral value times the usable loan-to-value. As long as that is no more
than one, debt is no more than the collateral is worth; but for a tiny catalytic ratio rounding can
lift it above one.
-/
namespace Stablecoin

/-- The collateral asset against whose limit a request is checked, if it is. -/
def Request.limitedBy : Request → Option Denom
  | .borrow r => some r.denom
  | .redeem r => some r.collateralOut.denom
  | _ => none

namespace PositionRecords

/-- A position that was settled in a block has no time to settle in it. -/
theorem settle_current {r settled : PositionRecords} {rate : Decimal}
    {height blocksPerYear : Height} (returned : r.settle rate height blocksPerYear = .ok settled) :
    blocksBetween settled.position.settledAt height = 0 := by
  unfold settle at returned
  dsimp only at returned
  split at returned
  next none =>
    cases pure_ok.mp returned
    exact none
  next =>
    simp only [bind_ok, pure_ok] at returned
    obtain ⟨_, -, _, -, _, -, _, -, _, -, _, -, _, -, rfl⟩ := returned
    exact Nat.sub_self _

theorem redeem_settledAt {r after : PositionRecords} {collateral native : Coin}
    (returned : r.redeem collateral native = .ok after) :
    after.position.settledAt = r.position.settledAt := by
  simp only [redeem, bind_ok, pure_ok] at returned
  obtain ⟨_, -, _, -, _, -, _, -, _, -, rfl⟩ := returned
  rfl

theorem borrow_settledAt {r after : PositionRecords} {amount : Nat}
    (returned : r.borrow amount = .ok after) :
    after.position.settledAt = r.position.settledAt := by
  simp only [borrow, bind_ok, pure_ok] at returned
  obtain ⟨_, -, _, -, _, -, rfl⟩ := returned
  rfl

end PositionRecords

namespace Engine

variable {e : Engine} {sender : Principal} {request : Request} {denom : Denom}
  {risk : CollateralParams}

/-! ### Limits -/

/-- A limit stems from the values of collateral and native token at the prices of the moment. -/
theorem debtLimit_ok {position : Position} {limit : DebtLimit}
    (limited : e.debtLimit position risk = .ok limit) :
    ∃ price nativePrice value nativeValue, e.price position.collateral.denom = .ok price ∧
      e.price nativeDenom = .ok nativePrice ∧ position.collateral.worth price = .ok value ∧
      position.nativeLocked.worth nativePrice = .ok nativeValue ∧
      (limit = ⟨0, 0⟩ ∨ 0 < value.toRat ∧
        risk.availableLoanToValue value nativeValue = .ok limit.loanToValue ∧
        value.mul limit.loanToValue = .ok limit.maxDebtValue) := by
  simp only [debtLimit, Position.valuesAt, bind_ok, pure_ok] at limited
  obtain ⟨price, priced, nativePrice, nativePriced, _, ⟨value, valued, nativeValue, nativeValued,
    rfl⟩, limited⟩ := limited
  refine ⟨price, nativePrice, value, nativeValue, priced, nativePriced, valued, nativeValued, ?_⟩
  dsimp only at limited
  split at limited
  next => exact .inl (pure_ok.mp limited).symm
  next positive =>
    simp only [bind_ok, pure_ok] at limited
    obtain ⟨_, available, _, multiplied, rfl⟩ := limited
    have worth : 0 < value.toRat := by simpa [Decimal.le_iff_toRat] using positive
    exact .inr ⟨worth, available, multiplied⟩

/-- The most debt in whole units is what the limit pays out. -/
theorem maxDebt_ok {position : Position} {price nativePrice : Decimal} {maxDebt : Nat}
    (priced : e.price position.collateral.denom = .ok price)
    (nativePriced : e.price nativeDenom = .ok nativePrice)
    (returned : position.maxDebt risk price nativePrice = .ok maxDebt) :
    ∃ limit, e.debtLimit position risk = .ok limit ∧
      limit.maxDebtValue.payOutAt pegTarget = .ok maxDebt := by
  simp only [Position.maxDebt, bind_ok, require_ok] at returned
  obtain ⟨⟨value, nativeValue⟩, valued, _, positive, loanToValue, available, product, multiplied,
    paid⟩ := returned
  refine ⟨⟨loanToValue, product⟩, ?_, paid⟩
  have worth : ¬ value ≤ 0 := by
    rw [Decimal.le_iff_toRat, not_le]
    exact Decimal.lt_iff_toRat.mp positive
  simp only [debtLimit, bind_ok]
  refine ⟨price, priced, nativePrice, nativePriced, _, valued, ?_⟩
  simp only [worth, if_false, bind_ok, pure_ok]
  exact ⟨loanToValue, available, product, multiplied, rfl⟩

/-- The limit of a position under valid parameters: no debt, or a share of its value that is at most
the maximum loan-to-value up to rounding. -/
theorem debtLimit_bounds {position : Position} {limit : DebtLimit}
    (valid : risk.validate = .ok ()) (limited : e.debtLimit position risk = .ok limit) :
    0 ≤ limit.loanToValue.toRat ∧
      limit.loanToValue.toRat ≤ risk.loanToValue.toRat + risk.roundingSlack ∧
      0 ≤ limit.maxDebtValue.toRat := by
  obtain ⟨price, nativePrice, value, nativeValue, -, nativePriced, -, nativeValued,
    rfl | ⟨positive, available, multiplied⟩⟩ := debtLimit_ok limited
  · obtain ⟨-, ⟨basic, ordered, -⟩, -⟩ := CollateralParams.validate_ratios valid
    have slack := CollateralParams.roundingSlack_nonneg valid
    simp only [Decimal.toRat_zero]
    exact ⟨le_rfl, by linarith, le_rfl⟩
  · have nonneg := Coin.worth_nonneg nativeValued (price_ok nativePriced).2
    obtain ⟨low, high⟩ := CollateralParams.availableLoanToValue_bounds valid nonneg available
    exact ⟨low, high, Decimal.mul_nonneg multiplied positive.le low⟩

/-- What a loan or a withdrawal has to leave: the records of its sender's position, settled, with
debt within the limit. -/
structure Accepts (e : Engine) (owner : Principal) (denom : Denom) (risk : CollateralParams)
    (left : PositionRecords) (limit : DebtLimit) : Prop where
  owned : left.position.owner = owner
  asset : left.position.collateral.denom = denom
  known : e.collateralParams denom = .ok risk
  pooled : ∃ pool, e.store.collateralPools.get? denom = some pool
  settled : blocksBetween left.position.settledAt e.height = 0
  limited : e.debtLimit left.position risk = .ok limit
  covered : (left.position.stableDebt.amount : ℚ) ≤ limit.maxDebtValue.toRat

/-- What is settled was loaded, so its asset has a pool. -/
theorem settledPosition_pooled {owner : Principal} {mayOpen : Bool} {settled : PositionRecords}
    (named : e.store.Named) (known : e.collateralParams denom = .ok risk)
    (loaded : e.settledPosition owner risk mayOpen = .ok settled) :
    (∃ pool, e.store.collateralPools.get? denom = some pool) ∧
      blocksBetween settled.position.settledAt e.height = 0 := by
  obtain ⟨before, found, accrued⟩ := settledPosition_ok loaded
  rw [named.collateralParams denom risk (collateralParams_ok known).1] at found
  exact ⟨⟨_, (position_ok found).2.1⟩, PositionRecords.settle_current accrued⟩

/-- A loan or a withdrawal is planned only if it leaves debt within the limit. -/
theorem plan_accepts {plan : Plan} (named : e.store.Named)
    (registered : e.store.collateralParams.get? denom = some risk)
    (valid : risk.validate = .ok ()) (limitedBy : request.limitedBy = some denom)
    (planned : e.plan sender request = .ok plan) :
    ∃ left limit, plan.update = .position left ∧ e.Accepts sender denom risk left limit := by
  cases request with
  | mint | burn | buyback | reback | deposit | repay | liquidate => cases limitedBy
  | borrow r =>
    cases limitedBy
    obtain ⟨fee, after, computed, -, written, -⟩ := planBorrow_ok planned
    obtain ⟨-, _, price, nativePrice, settled, maxDebt, known, priced, nativePriced, loaded, -,
      borrowed, -, returned, covered⟩ := afterBorrow_ok computed
    cases registered.symm.trans (collateralParams_ok known).1
    obtain ⟨pooled, current⟩ := settledPosition_pooled named known loaded
    obtain ⟨owned, of⟩ :=
      settledPosition_owned named known loaded (PositionRecords.borrow_changed borrowed)
    -- The limit in whole units is the limit of the position after the loan, paid out.
    obtain ⟨limit, limited, paid⟩ := maxDebt_ok (of ▸ priced) nativePriced returned
    have whole := Decimal.payOutAt_pegTarget_le (debtLimit_bounds valid limited).2.2 paid
    refine ⟨after, limit, written, owned, of, known, pooled, ?_, limited, ?_⟩
    · rwa [PositionRecords.borrow_settledAt borrowed]
    · exact (Nat.cast_le.mpr covered).trans whole
  | redeem r =>
    cases limitedBy
    obtain ⟨after, computed, -, written, -⟩ := planRedeem_ok planned
    obtain ⟨-, _, settled, limit, debt, known, loaded, redeemed, limited, owed, covered⟩ :=
      afterRedeem_ok computed
    cases registered.symm.trans (collateralParams_ok known).1
    obtain ⟨pooled, current⟩ := settledPosition_pooled named known loaded
    obtain ⟨owned, of⟩ :=
      settledPosition_owned named known loaded (PositionRecords.redeem_changed redeemed)
    refine ⟨after, limit, written, owned, of, known, pooled, ?_, limited, ?_⟩
    · rwa [PositionRecords.redeem_settledAt redeemed]
    · rw [Coin.worth_pegTarget] at owed
      rw [← Decimal.ofAmount_toRat owed]
      exact Decimal.le_iff_toRat.mp covered

/-- The position that a loan or a withdrawal leaves, with the limit that its debt is within. -/
theorem transact_accepts {response : Response} (named : e.store.Named)
    (registered : e.store.collateralParams.get? denom = some risk)
    (valid : risk.validate = .ok ()) (limitedBy : request.limitedBy = some denom)
    (returned : (e.transact sender request).result = .ok response) :
    ∃ left limit ledger event, e.Accepts sender denom risk left limit ∧
      (e.transact sender request).engine
        = { e with ledger, store := e.store.update (.position left) }.record event := by
  obtain ⟨plan, ledger, planned, -, -, carried⟩ := transact_ok returned
  obtain ⟨left, limit, written, accepts⟩ := plan_accepts named registered valid limitedBy planned
  exact ⟨left, limit, ledger, plan.event, accepts, written ▸ carried⟩

theorem Accepts.stored {left : PositionRecords} {limit : DebtLimit}
    (accepts : e.Accepts sender denom risk left limit) :
    (e.store.update (.position left)).positions.get? (sender, denom) = some left.position := by
  simp [Store.update, Store.setPosition, Store.setCollateralPool, accepts.owned, accepts.asset]

/-- A limit with a loan-to-value of at most one is no more than the collateral is worth. -/
theorem maxDebtValue_le_worth {position : Position} {limit : DebtLimit} {price value : Decimal}
    (valid : risk.validate = .ok ()) (limited : e.debtLimit position risk = .ok limit)
    (priced : e.price position.collateral.denom = .ok price)
    (valued : position.collateral.worth price = .ok value) (whole : limit.loanToValue.toRat ≤ 1) :
    limit.maxDebtValue.toRat ≤ value.toRat := by
  obtain ⟨low, -, -⟩ := debtLimit_bounds valid limited
  obtain ⟨_, _, _, _, priced', -, valued', -, cases⟩ := debtLimit_ok limited
  cases priced.symm.trans priced'
  cases valued.symm.trans valued'
  have nonneg := Coin.worth_nonneg valued (price_ok priced).2
  obtain rfl | ⟨-, -, multiplied⟩ := cases
  · exact Decimal.toRat_zero.trans_le nonneg
  · obtain ⟨product, multiplied', below⟩ := Decimal.mul?_share nonneg low whole
    cases multiplied'.symm.trans (orOverflow_ok.mp multiplied)
    exact below

/-- Under valid risk parameters a loan or a withdrawal leaves debt within the limit of the position,
whose loan-to-value is at most the maximum one up to rounding. If it is at most one, the debt is no
more than the collateral is worth. -/
theorem transact_debtWithinLimit {response : Response} (named : e.store.Named)
    (registered : e.store.collateralParams.get? denom = some risk)
    (valid : risk.validate = .ok ()) (limitedBy : request.limitedBy = some denom)
    (returned : (e.transact sender request).result = .ok response) :
    ∃ price left value limit, e.prices.get? denom = some price ∧
      (e.transact sender request).engine.store.positions.get? (sender, denom) = some left ∧
      left.collateral.worth price = .ok value ∧ e.debtLimit left risk = .ok limit ∧
      left.stableDebt.amount ≤ limit.maxDebtValue.toRat ∧
      limit.loanToValue.toRat ≤ risk.loanToValue.toRat + risk.roundingSlack ∧
      (limit.loanToValue ≤ 1 → left.stableDebt.amount ≤ value.toRat) := by
  obtain ⟨left, limit, ledger, event, accepts, carried⟩ :=
    transact_accepts named registered valid limitedBy returned
  obtain ⟨price, _, value, _, priced, -, valued, -, -⟩ := debtLimit_ok accepts.limited
  have reported := (price_ok priced).1
  rw [accepts.asset] at reported
  refine ⟨price, left.position, value, limit, reported, ?_, valued, accepts.limited,
    accepts.covered, (debtLimit_bounds valid accepts.limited).2.1, ?_⟩
  · rw [carried]
    exact accepts.stored
  · intro whole
    rw [Decimal.le_iff_toRat, Decimal.toRat_one] at whole
    exact accepts.covered.trans (maxDebtValue_le_worth valid accepts.limited priced valued whole)

/-! ### A desk for loans -/

/-- Risk parameters of ether without fees and interest. -/
def etherRisk (liquidationThreshold loanToValue basicLoanToValue catalyticRatio : Decimal) :
    CollateralParams where
  denom := "ether"
  enabled := true
  maxCollateral := none
  maxStableMint := none
  liquidationThreshold := liquidationThreshold
  loanToValue := loanToValue
  basicLoanToValue := basicLoanToValue
  catalyticRatio := catalyticRatio
  liquidationFee := percent 10
  mintFee := none
  interestRate := 0

/-- An engine in which a borrower has deposited ether and one unit of the native token, and someone
else holds stable units. -/
def lendingDesk (borrower other : Principal) (risk : CollateralParams) (price : Decimal)
    (ether : Nat) : Engine :=
  (fresh .initial .initial).run
    [.registerCollateral risk, .setRate "ether" price, .setRate nativeDenom 1,
      .fund (.user borrower) ⟨"ether", ether⟩, .fund (.user borrower) ⟨nativeDenom, 1⟩,
      .fund (.user other) ⟨stableDenom, 1000⟩,
      .transact borrower (.deposit ⟨none, ⟨"ether", ether⟩, ⟨nativeDenom, 1⟩⟩)]

/-- With a maximum of 0.7, ether worth 1000 supports a loan of 602 when one unit is locked. -/
theorem transact_debtWithinLimit_lendingDesk :
    let borrower : Principal := ⟨[1], by decide⟩
    let liquidator : Principal := ⟨[2], by decide⟩
    let risk := etherRisk (percent 80) (percent 70) (percent 60) (percent 5)
    let e := lendingDesk borrower liquidator risk 1 1000
    let request := .borrow ⟨none, "ether", ⟨stableDenom, 602⟩⟩
    e.store.Named ∧ e.store.collateralParams.get? "ether" = some risk ∧
      risk.validate = .ok () ∧ request.limitedBy = some "ether" ∧
      (e.transact borrower request).result = .ok (.borrow ⟨⟨stableDenom, 0⟩⟩) ∧
      ∃ left value limit,
        (e.transact borrower request).engine.store.positions.get? (borrower, "ether") = some left ∧
        left.collateral.worth 1 = .ok value ∧ e.debtLimit left risk = .ok limit ∧
        limit.loanToValue ≤ 1 ∧ left.stableDebt.amount ≤ value.toRat := by
  intro borrower liquidator risk e request
  have named : e.store.Named := (run_sound (fresh_sound _ _) _).keyed.named
  have registered : e.store.collateralParams.get? "ether" = some risk := by decide +kernel
  have valid : risk.validate = .ok () := by decide +kernel
  have returned : (e.transact borrower request).result = .ok (.borrow ⟨⟨stableDenom, 0⟩⟩) := by
    decide +kernel
  obtain ⟨price, left, value, limit, reported, stored, valued, limited, -, most, within⟩ :=
    transact_debtWithinLimit named registered valid rfl returned
  have one : e.prices.get? "ether" = some 1 := by decide +kernel
  cases reported.symm.trans one
  -- The maximum is far enough from one for the rounding not to matter.
  have whole : limit.loanToValue ≤ 1 := by
    have maximum : risk.loanToValue.toRat = 7 / 10 := by decide +kernel
    have catalytic : risk.catalyticRatio.toRat = 1 / 20 := by decide +kernel
    rw [CollateralParams.roundingSlack, if_neg (by decide), maximum, catalytic] at most
    rw [Decimal.le_iff_toRat, Decimal.toRat_one]
    linarith
  exact ⟨named, registered, valid, rfl, returned, left, value, limit, stored, valued, limited,
    whole, within whole⟩

/-- With a catalytic ratio of one last digit, a spread of 0.6 between the loan-to-values is rounded
up to one. Ether worth 1000 then supports a debt of 1400, although the maximum is one. -/
theorem tinyCatalyticRatio_debt_exceeds_worth :
    let borrower : Principal := ⟨[1], by decide⟩
    let liquidator : Principal := ⟨[2], by decide⟩
    let risk := etherRisk 1 1 (percent 40) { coefficient := 1, scale := 28 }
    let e := lendingDesk borrower liquidator risk 1 1000
    let receipt := e.transact borrower (.borrow ⟨none, "ether", ⟨stableDenom, 1400⟩⟩)
    e.store.params.validate = .ok () ∧ risk.validate = .ok () ∧
      e.store.collateralParams.get? "ether" = some risk ∧
      receipt.result = .ok (.borrow ⟨⟨stableDenom, 0⟩⟩) ∧
      (receipt.engine.store.position borrower "ether").stableDebt.amount = 1400 ∧
      (receipt.engine.store.position borrower "ether").collateral.worth 1
        = .ok { coefficient := 1000, scale := 0 } := by
  decide +kernel

end Engine

end Stablecoin
