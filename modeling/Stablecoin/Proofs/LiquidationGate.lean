import Stablecoin.Proofs.Exit
import Stablecoin.Proofs.Failures
import Stablecoin.Proofs.LiquidationPrice
import Stablecoin.Proofs.ModuleFunds

/-!
# When a liquidation succeeds

In the states that runs lead to, a liquidation is refused for its denomination, because the debt is
below the liquidation value, because the position has less collateral than is asked for, because the
price is above the liquidator's limit, because the liquidator does not have that much, or because an
amount in one of these checks is out of range. There is no other cause: whatever else can fail on the
way is covered by the debt books and by the custody of the module account.
-/
namespace Stablecoin

/-! ### Failures -/

/-- What is answered instead of a value is allowed. -/
def FailsOnly {α : Type} (allowed : Failure → Prop) (r : Result α) : Prop :=
  ∀ failure, r = .error failure → allowed failure

/-- The only failure is a refusal because something is out of range. -/
abbrev OnlyOverflows {α : Type} (r : Result α) : Prop := FailsOnly (· = .rejected .overflow) r

namespace FailsOnly

variable {α β : Type} {allowed : Failure → Prop} {r : Result α} {next : α → Result β}

theorem of_ok {value : α} (returned : r = .ok value) : FailsOnly allowed r := by
  intro failure failed
  cases returned.symm.trans failed

theorem bind (first : FailsOnly allowed r)
    (rest : ∀ value, r = .ok value → FailsOnly allowed (next value)) :
    FailsOnly allowed (r >>= next) := by
  intro failure failed
  rcases bind_error.mp failed with refused | ⟨value, returned, refused⟩
  · exact first failure refused
  · exact rest value returned failure refused

/-- A step that does not fail. -/
theorem after {value : α} (returned : r = .ok value) (rest : FailsOnly allowed (next value)) :
    FailsOnly allowed (r >>= next) := by
  rwa [returned]

/-- An overflow is allowed for a reason that may refer to the operation. -/
theorem of_overflow (overflows : OnlyOverflows r)
    (reason : r = .error (.rejected .overflow) → allowed (.rejected .overflow)) :
    FailsOnly allowed r := by
  intro failure failed
  obtain rfl := overflows failure failed
  exact reason failed

end FailsOnly

theorem require_failsOnly {condition : Prop} [Decidable condition] {cause : Rejection}
    {allowed : Failure → Prop} (refused : ¬ condition → allowed (.rejected cause)) :
    FailsOnly allowed (require condition cause) := by
  unfold require
  split
  next => exact .of_ok rfl
  next broken =>
    intro failure failed
    cases failed
    exact refused broken

theorem orOverflow_overflows {α : Type} (value : Option α) : OnlyOverflows (orOverflow value) := by
  cases value with
  | none => intro failure failed; cases failed; rfl
  | some value => exact .of_ok rfl

theorem Coin.add_overflows (c : Coin) (n : Nat) : OnlyOverflows (c.add n) := by
  unfold Coin.add
  split
  next => exact .of_ok rfl
  next => intro failure failed; cases failed; rfl

theorem Coin.worth_overflows (c : Coin) (price : Decimal) : OnlyOverflows (c.worth price) :=
  .bind (orOverflow_overflows _) fun _ _ => orOverflow_overflows _

/-! ### Interest -/

theorem accruedInterest_overflows (principal : Coin) {rate : Decimal} (nonneg : 0 ≤ rate.toRat)
    (period : Nat) (blocksPerYear : Height) :
    OnlyOverflows (accruedInterest principal rate period blocksPerYear) := by
  refine .bind (orOverflow_overflows _) fun amount counted => ?_
  refine .bind (orOverflow_overflows _) fun yearly multiplied => ?_
  refine .bind (orOverflow_overflows _) fun blocks counted' => ?_
  refine .bind (orOverflow_overflows _) fun accrued multiplied' => ?_
  refine .bind (orOverflow_overflows _) fun year counted'' => ?_
  refine .bind (orOverflow_overflows _) fun share divided => ?_
  -- No factor is negative, so what accrues can be rounded to an amount.
  have whole (n : Nat) {d : Decimal} (same : Decimal.ofAmount n = .ok d) : 0 ≤ d.toRat := by
    rw [Decimal.ofAmount_toRat same]
    exact Nat.cast_nonneg n
  have yearly_nonneg := Decimal.mul_nonneg multiplied (whole _ counted) nonneg
  have accrued_nonneg := Decimal.mul_nonneg multiplied' yearly_nonneg (whole _ counted')
  have share_nonneg := Decimal.div_nonneg divided accrued_nonneg (whole _ counted'')
  exact .of_ok (amountOf_ok.mpr
    (Int.toNat_of_nonneg (Decimal.roundHalfUp_nonneg share_nonneg)).symm)

/-- Interest that is part of the debt can be settled as long as it is in range. -/
theorem PositionRecords.settle_overflows {r : PositionRecords} {rate : Decimal}
    (height : Height) {blocksPerYear : Height} (nonneg : 0 ≤ rate.toRat)
    (blocks : blocksPerYear ≠ 0) (covered : r.DebtCovered) :
    OnlyOverflows (r.settle rate height blocksPerYear) := by
  unfold settle
  dsimp only
  split
  next => exact .of_ok rfl
  next =>
    -- Neither check is in the way, and what is left are sums.
    refine .bind (require_failsOnly (absurd blocks)) fun _ _ => ?_
    refine .after (Coin.sub_ok.mpr ⟨covered.interest, rfl⟩) ?_
    refine .bind (accruedInterest_overflows _ nonneg _ _) fun interest _ => ?_
    refine .bind (Coin.add_overflows _ _) fun _ _ => ?_
    refine .bind (Coin.add_overflows _ _) fun _ _ => ?_
    refine .bind (Coin.add_overflows _ _) fun _ _ => ?_
    refine .bind (Coin.add_overflows _ _) fun _ _ => ?_
    exact .of_ok rfl

/-! ### Prices and values -/

/-- Fee and commission are shares of the collateral, so both can be taken from it. -/
theorem Coin.liquidationFee_succeeds {collateral : Coin} {feeRate commissionRate amount : Decimal}
    (low : 0 ≤ feeRate.toRat) (high : feeRate.toRat ≤ 1) (low' : 0 ≤ commissionRate.toRat)
    (high' : commissionRate.toRat ≤ 1) (counted : collateral.toDecimal = .ok amount) :
    ∃ fee cut commission rest, amount.mul feeRate = .ok fee ∧ fee.mul commissionRate = .ok cut ∧
      cut.payOut = .ok commission ∧ commission ≤ collateral.amount ∧
      amount.subTrusted fee = .ok rest ∧ 0 ≤ rest.toRat := by
  have whole := Decimal.ofAmount_toRat counted
  have nonneg : 0 ≤ amount.toRat := whole ▸ Nat.cast_nonneg _
  obtain ⟨fee, multiplied, within⟩ := Decimal.mul?_share nonneg low high
  have fee_nonneg := Decimal.mul?_nonneg multiplied nonneg low
  obtain ⟨cut, multiplied', within'⟩ := Decimal.mul?_share fee_nonneg low' high'
  have cut_nonneg := Decimal.mul?_nonneg multiplied' fee_nonneg low'
  obtain ⟨commission, truncated⟩ := Decimal.payOut_of_nonneg cut_nonneg
  obtain ⟨rest, left, rest_nonneg⟩ := Decimal.sub?_of_le fee_nonneg within
  have taken : (commission : ℚ) ≤ collateral.amount := by
    rw [← whole]
    exact (Decimal.payOut_le truncated cut_nonneg).trans (within'.trans within)
  exact ⟨fee, cut, commission, rest, orOverflow_ok.mpr multiplied, orOverflow_ok.mpr multiplied',
    truncated, by exact_mod_cast taken, Decimal.subTrusted_ok.mpr left, rest_nonneg⟩

/-- The debt at which a position can be liquidated. -/
def Position.liquidationValue (position : Position) (risk : CollateralParams) (price : Decimal) :
    Result Decimal := do
  (← position.collateral.worth price).mul risk.liquidationThreshold

namespace Engine

variable {e : Engine} {sender : Principal} {r : LiquidateRequest} {risk : CollateralParams}
  {price : Decimal}

theorem requireLiquidatable_eq (position : Position) (risk : CollateralParams) (price : Decimal) :
    requireLiquidatable position risk price
      = (position.liquidationValue risk price >>= fun value =>
          position.stableDebt.toDecimal >>= fun debt =>
            require (value ≤ debt) (.notLiquidatable debt.text value.text)) := by
  simp only [requireLiquidatable, Position.liquidationValue, bind_assoc, Coin.worth_pegTarget]

/-! ### Refusals -/

/-- The debtor has a position in an enabled asset that has a price. -/
structure Exposed (e : Engine) (debtor : Principal) (denom : Denom) (risk : CollateralParams)
    (price : Decimal) : Prop where
  stored : ∃ position, e.store.positions.get? (debtor, denom) = some position
  registered : e.store.collateralParams.get? denom = some risk
  enabled : risk.enabled = true
  reported : e.prices.get? denom = some price
  positive : 0 < price

/-- An amount that a liquidation is checked by is out of range. -/
inductive LiquidationOverflows (e : Engine) (r : LiquidateRequest) (risk : CollateralParams)
    (price : Decimal) : Prop where
  | interest (beyond : e.settledPosition r.debtor risk false = .error (.rejected .overflow))
  | value {settled : PositionRecords} (loaded : e.settledPosition r.debtor risk false = .ok settled)
      (beyond : settled.position.liquidationValue risk price = .error (.rejected .overflow))
  | debt {settled : PositionRecords} (loaded : e.settledPosition r.debtor risk false = .ok settled)
      (beyond : settled.position.stableDebt.toDecimal = .error (.rejected .overflow))
  | cost (beyond : r.collateral.liquidationCost risk.liquidationFee price
      = .error (.rejected .overflow))

/-- Why a liquidation is refused, and what is answered. -/
inductive LiquidationRefusal (e : Engine) (sender : Principal) (r : LiquidateRequest)
    (risk : CollateralParams) (price : Decimal) : Failure → Prop where
  | wrongDenom (other : r.repayInMax.denom ≠ stableDenom) :
      e.LiquidationRefusal sender r risk price
        (.rejected (.wrongDenom stableDenom r.repayInMax.denom))
  | overflow (beyond : e.LiquidationOverflows r risk price) :
      e.LiquidationRefusal sender r risk price (.rejected .overflow)
  | notLiquidatable {settled : PositionRecords} {value debt : Decimal}
      (loaded : e.settledPosition r.debtor risk false = .ok settled)
      (valued : settled.position.liquidationValue risk price = .ok value)
      (owed : settled.position.stableDebt.toDecimal = .ok debt)
      (below : (settled.position.stableDebt.amount : ℚ) < value.toRat) :
      e.LiquidationRefusal sender r risk price
        (.rejected (.notLiquidatable debt.text value.text))
  | collateral {settled : PositionRecords}
      (loaded : e.settledPosition r.debtor risk false = .ok settled)
      (short : settled.position.collateral.amount < r.collateral.amount) :
      e.LiquidationRefusal sender r risk price
        (.rejected (.collateralInsufficient r.collateral settled.position.collateral))
  | slippage {cost : Nat}
      (sold : r.collateral.liquidationCost risk.liquidationFee price = .ok cost)
      (above : r.repayInMax.amount < cost) :
      e.LiquidationRefusal sender r risk price
        (.rejected (.slippage ⟨stableDenom, cost⟩ r.repayInMax))
  | funds {cost : Nat} (sold : r.collateral.liquidationCost risk.liquidationFee price = .ok cost)
      (short : e.ledger.balance (.user sender) stableDenom < cost) :
      e.LiquidationRefusal sender r risk price
        (.rejected (.ledger (.insufficientFunds (.user sender) ⟨stableDenom, cost⟩
          (e.ledger.balance (.user sender) stableDenom))))

/-! ### Records -/

/-- A stored position is loaded with its debt and its collateral covered by the pool. -/
theorem Exposed.loads (sound : e.Sound) (healthy : e.Healthy)
    (exposed : e.Exposed r.debtor r.collateral.denom risk price) :
    ∃ before, e.position r.debtor risk.denom false = .ok before ∧ before.DebtCovered ∧
      before.position.collateral.amount ≤ before.pool.collateral.amount := by
  obtain ⟨position, stored⟩ := exposed.stored
  obtain ⟨total, pool, totalled, pooled, loaded⟩ :=
    position_of_stored sound healthy stored exposed.registered
  have covers := (healthy.books.covers stored).1
  rw [Store.collateralPool, pooled] at covers
  exact ⟨⟨total, pool, position⟩, loaded,
    healthy.books.debtsCovered _ _ total pool position totalled pooled stored, covers⟩

theorem Exposed.settledPosition_overflows (sound : e.Sound) (healthy : e.Healthy)
    (exposed : e.Exposed r.debtor r.collateral.denom risk price) :
    OnlyOverflows (e.settledPosition r.debtor risk false) := by
  obtain ⟨before, loaded, covered, -⟩ := exposed.loads sound healthy
  have valid := healthy.store.validated.collateralParams _ risk exposed.registered
  refine .after loaded (PositionRecords.settle_overflows _ ?_ ?_ covered)
  · exact (CollateralParams.validate_rates valid).interestRate
  · exact Params.validate_blocksPerYear healthy.store.params

/-- Settling leaves debt and collateral covered by the pool. -/
theorem Exposed.settled_covered (sound : e.Sound) (healthy : e.Healthy)
    (exposed : e.Exposed r.debtor r.collateral.denom risk price) {settled : PositionRecords}
    (loaded : e.settledPosition r.debtor risk false = .ok settled) :
    settled.DebtCovered ∧
      settled.position.collateral.amount ≤ settled.pool.collateral.amount := by
  obtain ⟨before, found, covered, held⟩ := exposed.loads sound healthy
  obtain ⟨before', found', accrued⟩ := settledPosition_ok loaded
  cases found.symm.trans found'
  obtain ⟨interest, changed⟩ := PositionRecords.settle_changed accrued
  refine ⟨changed.debtCovered covered, ?_⟩
  have collateral := changed.collateral
  have pooled := changed.poolCollateral
  dsimp only at collateral pooled
  omega

/-! ### Planning -/

/-- What a position is worth and what it owes may be out of range; otherwise it is refused only if
its debt is below the liquidation value. -/
theorem requireLiquidatable_failsOnly {settled : PositionRecords} (sender : Principal)
    (loaded : e.settledPosition r.debtor risk false = .ok settled) :
    FailsOnly (e.LiquidationRefusal sender r risk price)
      (requireLiquidatable settled.position risk price) := by
  have overflows : OnlyOverflows (settled.position.liquidationValue risk price) :=
    .bind (Coin.worth_overflows _ _) fun _ _ => orOverflow_overflows _
  rw [requireLiquidatable_eq]
  refine .bind (overflows.of_overflow fun beyond => .overflow (.value loaded beyond))
    fun value valued => ?_
  refine .bind ((orOverflow_overflows _).of_overflow fun beyond => .overflow (.debt loaded beyond))
    fun debt owed => ?_
  refine require_failsOnly fun below => .notLiquidatable loaded valued owed ?_
  rwa [Decimal.le_iff_toRat, not_le, Decimal.ofAmount_toRat owed] at below

theorem afterLiquidate_failsOnly (sound : e.Sound) (healthy : e.Healthy)
    (exposed : e.Exposed r.debtor r.collateral.denom risk price) (sender : Principal) :
    FailsOnly (e.LiquidationRefusal sender r risk price)
      (e.afterLiquidate r.debtor r.collateral r.repayInMax) := by
  have known := collateralParams_of_enabled exposed.registered exposed.enabled
  have priced := price_of_reported exposed.reported exposed.positive
  have positive := (price_ok priced).2
  have valid := healthy.store.validated.collateralParams _ risk exposed.registered
  have rate := (CollateralParams.validate_rates valid).liquidationFee
  have rate' := (Params.validate_rates healthy.store.params).liquidationCommission
  refine .bind (require_failsOnly .wrongDenom) fun _ _ => ?_
  refine .after known (.after priced ?_)
  refine .bind ((exposed.settledPosition_overflows sound healthy).of_overflow
    fun beyond => .overflow (.interest beyond)) fun settled loaded => ?_
  obtain ⟨covered, pooled⟩ := exposed.settled_covered sound healthy loaded
  refine .bind (requireLiquidatable_failsOnly sender loaded) fun _ _ => ?_
  refine .bind (require_failsOnly fun short => .collateral loaded (Nat.lt_of_not_le short))
    fun _ held => ?_
  rw [require_ok] at held
  refine .bind ((orOverflow_overflows _).of_overflow fun beyond =>
    .overflow (.cost (bind_error.mpr (.inl beyond)))) fun amount counted => ?_
  obtain ⟨fee, cut, commission, rest, charged, shared, truncated, within, left, nonneg⟩ :=
    Coin.liquidationFee_succeeds rate.1 rate.2.le rate'.1 rate'.2.le counted
  refine .after charged (.after shared (.after truncated ?_))
  refine .after (Coin.sub_ok.mpr ⟨within, rfl⟩) (.after left ?_)
  -- What is left to compute is the price, and it is all that can be out of range.
  have cost : r.collateral.liquidationCost risk.liquidationFee price
      = (rest.mul price >>= fun value => value.payOutAt pegTarget) := by
    simp only [Coin.liquidationCost, counted, charged, left, ok_bind]
  refine .bind ((orOverflow_overflows _).of_overflow fun beyond =>
    .overflow (.cost (cost.trans (bind_error.mpr (.inl beyond))))) fun value valued => ?_
  have overflows : OnlyOverflows (value.payOutAt pegTarget) := fun _ failed =>
    (Decimal.payOutAt_error (Decimal.mul_nonneg valued nonneg positive.le) pegTarget_pos failed).1
  rw [valued, ok_bind] at cost
  refine .bind (overflows.of_overflow fun beyond => .overflow (.cost (cost.trans beyond)))
    fun repayIn paid => ?_
  refine .bind (require_failsOnly fun above =>
    .slippage (cost.trans paid) (Nat.lt_of_not_le above)) fun _ _ => ?_
  -- What is taken from the records from here on is covered by the books.
  have repaid := Nat.min_le_left settled.position.stableDebt.amount repayIn
  refine .after (Coin.sub_ok.mpr ⟨Nat.min_le_left _ _, rfl⟩) ?_
  refine .after (Coin.sub_ok.mpr ⟨repaid, rfl⟩) ?_
  refine .after (Coin.sub_ok.mpr ⟨repaid.trans covered.pool, rfl⟩) ?_
  refine .after (Coin.sub_ok.mpr ⟨repaid.trans covered.total, rfl⟩) ?_
  refine .after (Coin.sub_ok.mpr ⟨held, rfl⟩) ?_
  refine .after (Coin.withdraw_ok.mpr ⟨held.trans pooled, rfl⟩) ?_
  exact .of_ok rfl

/-! ### Paying -/

/-- Once a liquidation is planned, the ledger refuses it only if the liquidator cannot pay. -/
theorem planLiquidate_short (sound : e.Sound) (healthy : e.Healthy) {plan : Plan}
    {error : LedgerError} (planned : e.planLiquidate sender r = .ok plan)
    (failed : e.ledger.apply (dropZeros plan.moves) = .error error) :
    ∃ parts after, e.afterLiquidate r.debtor r.collateral r.repayInMax = .ok (parts, after) ∧
      e.ledger.balance (.user sender) parts.repayIn.denom < parts.repayIn.amount ∧
      error = .insufficientFunds (.user sender) parts.repayIn
        (e.ledger.balance (.user sender) parts.repayIn.denom) := by
  obtain ⟨parts, after, computed, moves, -⟩ := planLiquidate_ok planned
  have booked (d : Denom) : e.store.custody d ≤ e.moduleBalance d := by
    have held := healthy.custody d
    unfold unbooked at held
    omega
  have covered := planLiquidate_covered sound.keyed booked planned
  rw [moves] at covered failed
  obtain ⟨op, coin, middle, user, reached, source, short, stuck⟩ :=
    covered.short_user healthy.ledger sound.conserved (by simp [LedgerOp.source]) failed
  -- Only the payment comes from a user, and it comes first.
  obtain ⟨payer, rfl, rfl⟩ := reached.first rfl (by simp [LedgerOp.source]) source
  cases payer
  have named : validDenom parts.repayIn.denom = true := by
    obtain ⟨_, _, -, -, cost, -, paid⟩ := afterLiquidate_cost computed
    rw [paid]
    exact (by decide : validDenom stableDenom = true)
  refine ⟨parts, after, computed, short, ?_⟩
  exact Except.error.inj (stuck.symm.trans (Ledger.moveCoin_fails named source short))

/-- A liquidation fails only for a cause that is listed, and only if the cause is given. -/
theorem transact_liquidate_failsOnly (sound : e.Sound) (healthy : e.Healthy)
    (exposed : e.Exposed r.debtor r.collateral.denom risk price) (sender : Principal) :
    FailsOnly (e.LiquidationRefusal sender r risk price)
      (e.transact sender (.liquidate r)).result := by
  intro failure failed
  obtain unplanned | ⟨plan, error, planned, refused, rfl⟩ := transact_error failed
  · have overall : FailsOnly (e.LiquidationRefusal sender r risk price)
        (e.planLiquidate sender r) :=
      .bind (afterLiquidate_failsOnly sound healthy exposed sender) fun _ _ => .of_ok rfl
    exact overall failure unplanned
  · obtain ⟨parts, after, computed, short, rfl⟩ := planLiquidate_short sound healthy planned refused
    obtain ⟨risk', price', known, priced, cost, sold, paid⟩ := afterLiquidate_cost computed
    cases known.symm.trans (collateralParams_of_enabled exposed.registered exposed.enabled)
    cases priced.symm.trans (price_of_reported exposed.reported exposed.positive)
    rw [paid] at short ⊢
    exact .funds sold short

/-! ### Liquidating -/

/-- What has to hold for a liquidation to succeed, apart from amounts being in range. -/
structure MayLiquidate (e : Engine) (sender : Principal) (r : LiquidateRequest)
    (risk : CollateralParams) (price : Decimal) : Prop where
  stable : r.repayInMax.denom = stableDenom
  due : ∀ settled value, e.settledPosition r.debtor risk false = .ok settled →
    settled.position.liquidationValue risk price = .ok value →
    value.toRat ≤ settled.position.stableDebt.amount
  held : ∀ settled, e.settledPosition r.debtor risk false = .ok settled →
    r.collateral.amount ≤ settled.position.collateral.amount
  affordable : ∀ cost, r.collateral.liquidationCost risk.liquidationFee price = .ok cost →
    cost ≤ r.repayInMax.amount ∧ cost ≤ e.ledger.balance (.user sender) stableDenom

/-- Where all conditions hold, only an amount out of range keeps a liquidation from success. -/
theorem MayLiquidate.refusal {failure : Failure} (may : e.MayLiquidate sender r risk price)
    (refusal : e.LiquidationRefusal sender r risk price failure) :
    failure = .rejected .overflow ∧ e.LiquidationOverflows r risk price := by
  cases refusal with
  | wrongDenom other => exact absurd may.stable other
  | overflow beyond => exact ⟨rfl, beyond⟩
  | notLiquidatable loaded valued owed below =>
    exact absurd (may.due _ _ loaded valued) (not_le.mpr below)
  | collateral loaded short => exact absurd (may.held _ loaded) (Nat.not_le.mpr short)
  | slippage sold above => exact absurd (may.affordable _ sold).1 (Nat.not_le.mpr above)
  | funds sold short => exact absurd (may.affordable _ sold).2 (Nat.not_le.mpr short)

/-- What a liquidation does: the debt, interest first, falls by the payment or to zero, and the
collateral by exactly what was asked for, in the position and in its pool. -/
structure Liquidated (e after : Engine) (r : LiquidateRequest) (risk : CollateralParams)
    (price : Decimal) (response : LiquidateResponse) (settled : PositionRecords) : Prop where
  loaded : e.settledPosition r.debtor risk false = .ok settled
  due : ∃ value, settled.position.liquidationValue risk price = .ok value ∧
    value.toRat ≤ settled.position.stableDebt.amount
  paid : r.collateral.liquidationCost risk.liquidationFee price = .ok response.repayIn.amount
  stable : response.repayIn.denom = stableDenom
  delivered : response.collateralOut.amount + response.commission.amount = r.collateral.amount
  named : response.collateralOut.denom = r.collateral.denom ∧
    response.commission.denom = r.collateral.denom
  collateral : (after.store.position r.debtor r.collateral.denom).collateral.amount
      + r.collateral.amount
    = (e.store.position r.debtor r.collateral.denom).collateral.amount
  poolCollateral : (after.store.collateralPool r.collateral.denom).collateral.amount
      + r.collateral.amount
    = (e.store.collateralPool r.collateral.denom).collateral.amount
  debt : (after.store.position r.debtor r.collateral.denom).stableDebt.amount
      + min settled.position.stableDebt.amount response.repayIn.amount
    = settled.position.stableDebt.amount
  poolDebt : (after.store.collateralPool r.collateral.denom).stableDebt.amount
      + min settled.position.stableDebt.amount response.repayIn.amount
    = settled.pool.stableDebt.amount
  totalDebt : after.store.allCollateral.stableDebt.amount
      + min settled.position.stableDebt.amount response.repayIn.amount
    = settled.total.stableDebt.amount
  interest : (after.store.position r.debtor r.collateral.denom).interest.amount
      + min settled.position.interest.amount
          (min settled.position.stableDebt.amount response.repayIn.amount)
    = settled.position.interest.amount

/-- What is made of a settled position is found in the store once it is written. -/
theorem settledPosition_written {owner : Principal} {denom : Denom} {mayOpen : Bool}
    {settled left : PositionRecords} {change : PositionChange} (keyed : e.store.Keyed)
    (known : e.collateralParams denom = .ok risk)
    (loaded : e.settledPosition owner risk mayOpen = .ok settled)
    (changed : settled.Changed change left) :
    let written := e.store.update (.position left)
    written.position owner denom = left.position ∧ written.collateralPool denom = left.pool ∧
      written.allCollateral = left.total := by
  obtain ⟨before, found, interest, accrued⟩ := settledPosition_changed keyed.named known loaded
  obtain ⟨owned, named, pooled⟩ := position_named keyed found
  have all := accrued.trans changed
  have owned' := all.owner.trans owned
  have named' := all.denom.trans named
  have pooled' := all.poolDenom.trans pooled
  refine ⟨?_, ?_, rfl⟩
  · simp [Store.update, Store.position, Store.setPosition, owned', named']
  · simp [Store.update, Store.collateralPool, Store.setPosition, Store.setCollateralPool, pooled']

/-- Settling leaves collateral alone. -/
theorem settledPosition_collateral {owner : Principal} {denom : Denom} {settled : PositionRecords}
    (named : e.store.Named) (known : e.collateralParams denom = .ok risk)
    (loaded : e.settledPosition owner risk false = .ok settled) :
    settled.position.collateral.amount = (e.store.position owner denom).collateral.amount ∧
      settled.pool.collateral.amount = (e.store.collateralPool denom).collateral.amount := by
  obtain ⟨before, found, interest, accrued⟩ := settledPosition_changed named known loaded
  obtain ⟨-, pooled, stored | ⟨-, opened, -⟩⟩ := position_ok found
  · have collateral := accrued.collateral
    have poolCollateral := accrued.poolCollateral
    rw [Store.position, stored, Store.collateralPool, pooled, Option.getD_some, Option.getD_some]
    dsimp only at collateral poolCollateral
    omega
  · cases opened

theorem transact_liquidated (sound : e.Sound)
    (exposed : e.Exposed r.debtor r.collateral.denom risk price) {response : Response}
    (returned : (e.transact sender (.liquidate r)).result = .ok response) :
    ∃ parts settled, response = .liquidate parts ∧
      e.Liquidated (e.transact sender (.liquidate r)).engine r risk price parts settled := by
  obtain ⟨plan, ledger, planned, -, rfl, carried⟩ := transact_ok returned
  obtain ⟨parts, left, computed, -, written, -, answer⟩ := planLiquidate_ok planned
  obtain ⟨risk', price', known, priced, cost, sold, paid⟩ := afterLiquidate_cost computed
  cases known.symm.trans (collateralParams_of_enabled exposed.registered exposed.enabled)
  cases priced.symm.trans (price_of_reported exposed.reported exposed.positive)
  obtain ⟨-, risk', price', settled, _, _, commission, _, _, _, _, _, known', priced', loaded, due,
    -, -, -, -, -, -, -, within, rfl, rfl, rfl, liquidated⟩ := afterLiquidate_ok computed
  -- Both readings of the calculation speak of the same parameters and price.
  cases known.symm.trans known'
  cases priced.symm.trans priced'
  cases paid
  obtain ⟨_, worth, value, shared, debt, owed, reached⟩ := requireLiquidatable_ok.mp due
  rw [Decimal.le_iff_toRat, Decimal.ofAmount_toRat owed] at reached
  obtain ⟨position, pool, total⟩ :=
    settledPosition_written sound.keyed known loaded liquidated
  obtain ⟨kept, pooled⟩ := settledPosition_collateral sound.keyed.named known loaded
  have store : (e.transact sender (.liquidate r)).engine.store
      = e.store.update (.position left) := by
    rw [carried, ← written]
    rfl
  obtain ⟨-, -, -, collateral, poolCollateral, debt', poolDebt, totalDebt, -, -, -, interest⟩ :=
    liquidated
  dsimp only at collateral poolCollateral debt' poolDebt totalDebt interest
  refine ⟨_, settled, answer, ⟨loaded, ⟨value, bind_ok.mpr ⟨_, worth, shared⟩, reached⟩, sold, rfl,
    Nat.sub_add_cancel within, ⟨rfl, rfl⟩, ?_, ?_, ?_, ?_, ?_, ?_⟩⟩
  all_goals
    rw [store]
    simp only [position, pool, total]
    omega

/-- After every run from valid parameters, the gate to liquidate a position in an enabled asset with
a positive price is exact, whoever asks for whatever part of it. As long as the settled debt is below
the liquidation value nothing is liquidated. Otherwise collateral that is held is sold at a price
that the liquidator accepts and has, unless an amount is out of range, and there are no causes of
failure but these. A sale takes exactly the collateral asked for, and the payment reduces the debt,
interest first. -/
theorem run_liquidationGate {params : Params} (valid : params.validate = .ok ())
    (accounts : ModuleAccounts) (actions : List Action) (sender : Principal) (r : LiquidateRequest)
    (exposed : ((fresh params accounts).run actions).Exposed r.debtor r.collateral.denom risk
      price) :
    let e := (fresh params accounts).run actions
    let receipt := e.transact sender (.liquidate r)
    (∀ settled value, e.settledPosition r.debtor risk false = .ok settled →
      settled.position.liquidationValue risk price = .ok value →
      (settled.position.stableDebt.amount : ℚ) < value.toRat →
      ∃ failure, receipt.result = .error failure) ∧
    (e.MayLiquidate sender r risk price →
      (∃ response, receipt.result = .ok response) ∨
        receipt.result = .error (.rejected .overflow) ∧ e.LiquidationOverflows r risk price) ∧
    (∀ failure, receipt.result = .error failure →
      e.LiquidationRefusal sender r risk price failure) ∧
    ∀ response, receipt.result = .ok response →
      ∃ parts settled, response = .liquidate parts ∧
        e.Liquidated receipt.engine r risk price parts settled := by
  intro e receipt
  have sound : e.Sound := run_sound (fresh_sound params accounts) actions
  have healthy : e.Healthy := run_healthy valid accounts actions
  have refusals : FailsOnly (e.LiquidationRefusal sender r risk price) receipt.result :=
    transact_liquidate_failsOnly sound healthy exposed sender
  have successes (response : Response) (returned : receipt.result = .ok response) :
      ∃ parts settled, response = .liquidate parts ∧
        e.Liquidated receipt.engine r risk price parts settled :=
    transact_liquidated sound exposed returned
  refine ⟨?_, ?_, refusals, successes⟩
  · intro settled value loaded valued below
    cases returned : receipt.result with
    | error failure => exact ⟨failure, rfl⟩
    | ok response =>
      obtain ⟨parts, settled', -, done⟩ := successes response returned
      obtain ⟨value', valued', due⟩ := done.due
      cases loaded.symm.trans done.loaded
      cases valued.symm.trans valued'
      exact absurd due (not_le.mpr below)
  · intro may
    cases returned : receipt.result with
    | ok response => exact .inl ⟨response, rfl⟩
    | error failure =>
      obtain ⟨rfl, beyond⟩ := may.refusal (refusals failure returned)
      exact .inr ⟨rfl, beyond⟩

/-- With a debt of 521 a position of 1000 ether cannot be liquidated at a price of 1 and a threshold
of 0.8, and can at a price of 0.50. -/
theorem run_liquidationGate_loanRun :
    let borrower : Principal := ⟨[1], by decide⟩
    let liquidator : Principal := ⟨[2], by decide⟩
    let risk : CollateralParams :=
      { etherRisk (percent 80) (percent 70) (percent 60) (percent 5) with
        mintFee := some (percent 1), interestRate := percent 10 }
    let r : LiquidateRequest := ⟨none, borrower, ⟨"ether", 100⟩, ⟨stableDenom, 1000⟩⟩
    let early := (fresh .initial .initial).run loanRun.dropLast.dropLast
    let late := (fresh .initial .initial).run loanRun.dropLast
    (early.Exposed borrower "ether" risk 1 ∧
        ∃ failure, (early.transact liquidator (.liquidate r)).result = .error failure) ∧
      late.Exposed borrower "ether" risk (percent 50) ∧
      late.MayLiquidate liquidator r risk (percent 50) ∧
      ∃ response, (late.transact liquidator (.liquidate r)).result = .ok response := by
  intro borrower liquidator risk r early late
  let settled : PositionRecords :=
    ⟨⟨⟨stableDenom, 521⟩, ⟨nativeDenom, 40⟩⟩,
      ⟨⟨"ether", 1000⟩, ⟨stableDenom, 521⟩, ⟨nativeDenom, 40⟩⟩,
      ⟨borrower, ⟨"ether", 1000⟩, ⟨stableDenom, 521⟩, ⟨nativeDenom, 40⟩, ⟨stableDenom, 16⟩,
        2000000⟩⟩
  obtain ⟨⟨stored, registered, reported⟩, loaded⟩ :
      ((early.store.positions.get? (borrower, "ether")).isSome ∧
        early.store.collateralParams.get? "ether" = some risk ∧
        early.prices.get? "ether" = some 1) ∧
      early.settledPosition borrower risk false = .ok settled := by
    decide +kernel
  obtain ⟨⟨stored', registered', reported'⟩, loaded', funded⟩ :
      ((late.store.positions.get? (borrower, "ether")).isSome ∧
        late.store.collateralParams.get? "ether" = some risk ∧
        late.prices.get? "ether" = some (percent 50)) ∧
      late.settledPosition borrower risk false = .ok settled ∧
      45 ≤ late.ledger.balance (.user liquidator) stableDenom := by
    decide +kernel
  have exposed : early.Exposed borrower "ether" risk 1 :=
    ⟨Option.isSome_iff_exists.mp stored, registered, rfl, reported, by decide⟩
  have exposed' : late.Exposed borrower "ether" risk (percent 50) :=
    ⟨Option.isSome_iff_exists.mp stored', registered', rfl, reported', by decide⟩
  have valued : settled.position.liquidationValue risk 1
      = .ok { coefficient := 80000, scale := 2 } := by
    decide +kernel
  have valued' : settled.position.liquidationValue risk (percent 50)
      = .ok { coefficient := 4000000, scale := 4 } := by
    decide +kernel
  have sold : r.collateral.liquidationCost risk.liquidationFee (percent 50) = .ok 45 := by
    decide +kernel
  have may : late.MayLiquidate liquidator r risk (percent 50) := by
    refine ⟨rfl, ?_, ?_, ?_⟩
    · intro settled' value same worth
      cases loaded'.symm.trans same
      cases valued'.symm.trans worth
      decide +kernel
    · intro settled' same
      cases loaded'.symm.trans same
      decide
    · intro cost priced
      cases sold.symm.trans priced
      exact ⟨by decide, funded⟩
  obtain ⟨refused, -⟩ :=
    run_liquidationGate rfl .initial loanRun.dropLast.dropLast liquidator r exposed
  obtain ⟨-, succeeds, -⟩ :=
    run_liquidationGate rfl .initial loanRun.dropLast liquidator r exposed'
  refine ⟨⟨exposed, refused settled _ loaded valued (by decide +kernel)⟩, exposed', may, ?_⟩
  rcases succeeds may with done | ⟨-, beyond⟩
  · exact done
  · -- All that is looked at is in range.
    cases beyond with
    | interest beyond => cases loaded'.symm.trans beyond
    | value loaded beyond =>
      cases loaded'.symm.trans loaded
      cases valued'.symm.trans beyond
    | debt loaded beyond =>
      cases loaded'.symm.trans loaded
      have owed : settled.position.stableDebt.toDecimal.isOk = true := by decide +kernel
      rw [beyond] at owed
      cases owed
    | cost beyond => cases sold.symm.trans beyond

end Engine

end Stablecoin
