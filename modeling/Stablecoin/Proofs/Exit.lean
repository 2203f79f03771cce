import Stablecoin.Proofs.Healthy
import Stablecoin.Proofs.Valuation

/-!
# Leaving without debt

Whoever owes nothing can redeem all of their collateral and locked native token. Each check on the
way passes in a healthy engine: no interest accrues on no debt, the pool and the total cover the
position, a position without collateral and debt is within its limit, and the module account holds
what is to be paid.
-/
namespace Stablecoin

/-! ### Settling nothing -/

theorem Coin.InRange.add_zero {c : Coin} {denom : Denom} (inRange : c.InRange denom) :
    c.add 0 = .ok c :=
  Coin.add_ok.mpr ⟨inRange.amount, rfl⟩

/-- No interest accrues on no principal, at any rate and over any time. -/
theorem accruedInterest_zero (denom : Denom) (rate : Decimal) {period : Nat}
    (inRange : period < Decimal.coefficientBound) {blocksPerYear : Height}
    (nonzero : blocksPerYear ≠ 0) :
    accruedInterest ⟨denom, 0⟩ rate period blocksPerYear = .ok 0 := by
  have small : blocksPerYear.toNat < Decimal.coefficientBound :=
    blocksPerYear.toNat_lt.trans (by decide)
  have some' : blocksPerYear.toNat ≠ 0 := by
    intro none
    exact nonzero (UInt64.toNat_inj.mp none)
  simp only [accruedInterest, bind_ok, Coin.toDecimal]
  exact ⟨0, rfl, 0, orOverflow_ok.mpr (Decimal.zero_mul? _), _, Decimal.ofAmount_of_lt inRange,
    0,
    orOverflow_ok.mpr (Decimal.zero_mul? _), _, Decimal.ofAmount_of_lt small, 0,
    orOverflow_ok.mpr (Decimal.zero_div? (by simpa [Decimal.isZero] using some')), rfl⟩

namespace PositionRecords

/-- Settling a position without debt changes nothing but the block of settlement. -/
theorem InRange.settle_debtFree {r : PositionRecords} {denom : Denom} (inRange : r.InRange denom)
    (debtFree : r.position.stableDebt.amount = 0)
    (covered : r.position.interest.amount ≤ r.position.stableDebt.amount) (rate : Decimal)
    (height : Height) {blocksPerYear : Height} (nonzero : blocksPerYear ≠ 0) :
    ∃ block, r.settle rate height blocksPerYear
      = .ok { r with position := { r.position with settledAt := block } } := by
  obtain ⟨total, pool, position⟩ := inRange
  unfold PositionRecords.settle
  dsimp only
  split
  next => exact ⟨r.position.settledAt, rfl⟩
  next =>
    have period : blocksBetween r.position.settledAt height < Decimal.coefficientBound :=
      (Nat.sub_le _ _).trans_lt (height.toNat_lt.trans (by decide))
    have principal : r.position.principal = .ok ⟨r.position.stableDebt.denom, 0⟩ := by
      simp only [Position.principal, Coin.sub_ok, debtFree]
      exact ⟨by omega, by rw [Nat.zero_sub]⟩
    simp only [bind_ok, require_ok, pure_ok]
    exact ⟨height, (), nonzero, _, principal, 0, accruedInterest_zero _ _ period nonzero, _,
      position.interest.add_zero, _, position.stableDebt.add_zero, _, pool.stableDebt.add_zero, _,
      total.stableDebt.add_zero, rfl⟩

/-- What the pool and the total cover can be redeemed, down to nothing. -/
theorem redeem_all {r : PositionRecords}
    (collateral : r.position.collateral.amount ≤ r.pool.collateral.amount)
    (native : r.position.nativeLocked.amount ≤ r.pool.nativeLocked.amount)
    (totalNative : r.position.nativeLocked.amount ≤ r.total.nativeLocked.amount) :
    ∃ after, r.redeem r.position.collateral r.position.nativeLocked = .ok after ∧
      after.position =
        { r.position with
          collateral := .zero r.position.collateral.denom
          nativeLocked := .zero r.position.nativeLocked.denom } := by
  have all (c : Coin) : c.withdraw c = .ok (.zero c.denom) :=
    Coin.withdraw_ok.mpr ⟨Nat.le_refl _, by rw [Nat.sub_self]; rfl⟩
  simp only [redeem, bind_ok, pure_ok]
  exact ⟨_, ⟨_, all _, _, Coin.withdraw_ok.mpr ⟨collateral, rfl⟩, _, all _, _,
    Coin.withdraw_ok.mpr ⟨native, rfl⟩, _, Coin.withdraw_ok.mpr ⟨totalNative, rfl⟩, rfl⟩, rfl⟩

end PositionRecords

/-! ### What the books cover -/

namespace Store

variable {s : Store} {owner : Principal} {denom : Denom} {position : Position}

/-- A position counts for no more than all positions in its asset. -/
theorem le_positionSum (stored : s.positions.get? (owner, denom) = some position)
    (amount : Position → Nat) : (amount position : Int) ≤ s.positionSum denom amount := by
  have bounded := s.positions.countAt_le_sum
    (f := fun key position => if key.2 = denom then (amount position : Int) else 0)
    (fun _ _ => by split <;> omega) (owner, denom)
  rwa [Table.countAt, stored, Option.elim_some, if_pos rfl] at bounded

/-- The pool covers each of its positions, and the total covers the pool. -/
theorem BooksAgree.covers (agree : s.BooksAgree)
    (stored : s.positions.get? (owner, denom) = some position) :
    position.collateral.amount ≤ (s.collateralPool denom).collateral.amount ∧
      position.nativeLocked.amount ≤ (s.collateralPool denom).nativeLocked.amount ∧
      (s.collateralPool denom).nativeLocked.amount ≤ s.allCollateral.nativeLocked.amount := by
  have collateral := le_positionSum stored (·.collateral.amount)
  have native := le_positionSum stored (·.nativeLocked.amount)
  have pooled := s.collateralPools.countAt_le_sum
    (f := fun _ pool => (pool.nativeLocked.amount : Int)) (fun _ _ => by omega) denom
  have counted : s.collateralPools.countAt (fun _ pool => (pool.nativeLocked.amount : Int)) denom
      = (s.collateralPool denom).nativeLocked.amount := by
    unfold Table.countAt Store.collateralPool
    cases s.collateralPools.get? denom <;> rfl
  have poolCollateral := agree.collateral denom
  have poolNative := agree.native denom
  have allNative := agree.allNative
  omega

end Store

namespace Engine

variable {e : Engine} {owner : Principal} {denom : Denom}

/-- The module account holds the collateral and the locked token of each position. -/
theorem Healthy.holds (healthy : e.Healthy) {position : Position}
    (stored : e.store.positions.get? (owner, denom) = some position)
    (foreign : denom ≠ nativeDenom) (d : Denom) :
    amountIn [⟨denom, position.collateral.amount⟩, ⟨nativeDenom, position.nativeLocked.amount⟩] d
      ≤ e.moduleBalance d := by
  obtain ⟨collateral, native, all⟩ := healthy.books.covers stored
  have held := healthy.custody d
  have summed := healthy.books.allNative
  unfold unbooked Store.custody at held
  simp only [amountIn_cons, amountIn_nil, Coin.inDenom]
  by_cases same : denom = d
  · subst same
    rw [if_neg foreign] at held
    rw [if_pos rfl, if_neg foreign.symm]
    omega
  · rw [if_neg same]
    by_cases locked : nativeDenom = d
    · subst locked
      rw [if_pos rfl] at held ⊢
      omega
    · rw [if_neg locked]
      omega

/-! ### Redeeming -/

/-- Nothing can be borrowed against nothing. -/
theorem debtLimit_of_zero {position : Position} {price nativePrice : Decimal}
    (risk : CollateralParams) (priced : e.price position.collateral.denom = .ok price)
    (nativePriced : e.price nativeDenom = .ok nativePrice)
    (collateral : position.collateral.amount = 0) (native : position.nativeLocked.amount = 0) :
    e.debtLimit position risk = .ok ⟨0, 0⟩ := by
  simp only [debtLimit, Position.valuesAt, bind_ok, pure_ok]
  exact ⟨price, priced, nativePrice, nativePriced, (0, 0), ⟨0, Coin.worth_of_zero collateral price,
    0, Coin.worth_of_zero native nativePrice, rfl⟩, rfl⟩

theorem collateralParams_of_enabled {risk : CollateralParams}
    (registered : e.store.collateralParams.get? denom = some risk) (enabled : risk.enabled = true) :
    e.collateralParams denom = .ok risk := by
  rw [collateralParams, registered]
  exact bind_ok.mpr ⟨(), require_ok.mpr enabled, rfl⟩

/-- What it takes for the owner of a position without debt to leave. -/
structure MayLeave (e : Engine) (owner : Principal) (denom : Denom) (position : Position) :
    Prop where
  stored : e.store.positions.get? (owner, denom) = some position
  debtFree : position.stableDebt.amount = 0
  enabled : ∃ risk, e.store.collateralParams.get? denom = some risk ∧ risk.enabled = true
  priced : ∃ price, e.prices.get? denom = some price ∧ 0 < price
  nativePriced : ∃ price, e.prices.get? nativeDenom = some price ∧ 0 < price

/-- A stored position in a registered asset is loaded, with its pool and the total. -/
theorem position_of_stored {position : Position} {risk : CollateralParams} (sound : e.Sound)
    (healthy : e.Healthy) (stored : e.store.positions.get? (owner, denom) = some position)
    (registered : e.store.collateralParams.get? denom = some risk) :
    ∃ total pool, e.store.collateralTotal = some total ∧
      e.store.collateralPools.get? denom = some pool ∧
      e.position owner risk.denom false = .ok ⟨total, pool, position⟩ := by
  obtain ⟨total, pool, totalled, pooled⟩ := healthy.store.registered denom risk registered
  have named := sound.keyed.collateralParams denom risk registered
  refine ⟨total, pool, totalled, pooled, ?_⟩
  simp [Engine.position, named, totalled, pooled, stored, pure, Except.pure]

/-- A position without debt can be settled, and its pool and the total cover it. -/
theorem settledPosition_debtFree {position : Position} {risk : CollateralParams} (sound : e.Sound)
    (healthy : e.Healthy) (stored : e.store.positions.get? (owner, denom) = some position)
    (debtFree : position.stableDebt.amount = 0)
    (registered : e.store.collateralParams.get? denom = some risk) :
    ∃ total pool block, e.settledPosition owner risk false
        = .ok ⟨total, pool, { position with settledAt := block }⟩ ∧
      position.collateral.amount ≤ pool.collateral.amount ∧
      position.nativeLocked.amount ≤ pool.nativeLocked.amount ∧
      position.nativeLocked.amount ≤ total.nativeLocked.amount := by
  obtain ⟨total, pool, totalled, pooled, loaded⟩ :=
    position_of_stored sound healthy stored registered
  obtain ⟨block, settled⟩ :=
    (position_inRange healthy.store.inRange loaded).settle_debtFree debtFree
      (healthy.books.interest owner denom position stored) risk.interestRate e.height
      (Params.validate_blocksPerYear healthy.store.params)
  -- The pool and the total are those of the books, which cover the position.
  obtain ⟨collateral, native, all⟩ := healthy.books.covers stored
  have poolIs : e.store.collateralPool denom = pool := by rw [Store.collateralPool, pooled]; rfl
  have totalIs : e.store.allCollateral = total := by rw [Store.allCollateral, totalled]; rfl
  rw [poolIs] at collateral native all
  rw [totalIs] at all
  exact ⟨total, pool, block, bind_ok.mpr ⟨_, loaded, settled⟩, collateral, native,
    native.trans all⟩

theorem afterRedeem_all {position : Position} (sound : e.Sound) (healthy : e.Healthy)
    (leaving : e.MayLeave owner denom position) :
    ∃ after block, e.afterRedeem owner position.collateral position.nativeLocked = .ok after ∧
      after.position =
        { position with
          collateral := .zero position.collateral.denom
          nativeLocked := .zero position.nativeLocked.denom
          settledAt := block } := by
  obtain ⟨stored, debtFree, ⟨risk, registered, enabled⟩, ⟨price, reported, positive⟩,
    ⟨nativePrice, nativeReported, nativePositive⟩⟩ := leaving
  have of := (sound.keyed.position owner denom position stored).2
  have known := collateralParams_of_enabled registered enabled
  have priced := price_of_reported reported positive
  have nativePriced := price_of_reported nativeReported nativePositive
  have locked := (healthy.store.inRange.position owner denom position stored).nativeLocked
  obtain ⟨total, pool, block, settled, collateral, native, totalNative⟩ :=
    settledPosition_debtFree sound healthy stored debtFree registered
  obtain ⟨after, redeemed, left⟩ := PositionRecords.redeem_all
    (r := ⟨total, pool, { position with settledAt := block }⟩) collateral native totalNative
  refine ⟨after, block, ?_, left⟩
  -- The limit of what is left is zero, and so is its debt.
  have nothing : after.position.stableDebt.worth pegTarget = .ok 0 := by
    rw [left]
    exact Coin.worth_of_zero debtFree pegTarget
  have limit : e.debtLimit after.position risk = .ok ⟨0, 0⟩ := by
    rw [left]
    exact debtLimit_of_zero risk (of ▸ priced) nativePriced rfl rfl
  simp only [afterRedeem, bind_ok, Coin.requireDenom_ok, require_ok, pure_ok]
  exact ⟨(), locked.denom, risk, of ▸ known, _, settled, after, redeemed, _, limit, 0, nothing, (),
    by decide, rfl⟩

/-- The owner of a position without debt gets all of it. -/
theorem transact_leaves {position : Position} (sound : e.Sound) (healthy : e.Healthy)
    (leaving : e.MayLeave owner denom position) (receiver : Option Principal) :
    let request := .redeem ⟨receiver, position.collateral, position.nativeLocked⟩
    let receipt := e.transact owner request
    receipt.result = .ok .redeem ∧ ∃ left,
      receipt.engine.store.positions.get? (owner, denom) = some left ∧
        left.collateral.amount = 0 ∧ left.nativeLocked.amount = 0 ∧
        left.stableDebt.amount = 0 := by
  intro request receipt
  obtain ⟨after, block, computed, left⟩ := afterRedeem_all sound healthy leaving
  obtain ⟨owned, of⟩ := sound.keyed.position owner denom position leaving.stored
  have locked := (healthy.store.inRange.position owner denom position leaving.stored).nativeLocked
  obtain ⟨risk, registered, -⟩ := leaving.enabled
  obtain ⟨_, pool, -, pooled⟩ := healthy.store.registered denom risk registered
  have foreign := (sound.keyed.collateralPool denom pool pooled).2.2
  have covered (d : Denom) : amountIn [position.collateral, position.nativeLocked] d
      ≤ e.ledger.balance (.module e.accounts.module) d := by
    have held := healthy.holds leaving.stored foreign d
    rwa [← of, ← locked.denom] at held
  obtain ⟨ledger, applied⟩ := Ledger.apply_sendToUser healthy.ledger sound.conserved
    (receiver.getD owner) covered
  have planned : ∃ plan, e.plan owner request = .ok plan ∧
      plan.moves = [.sendToUser e.accounts.module (receiver.getD owner)
        [position.collateral, position.nativeLocked]] ∧
      plan.update = .position after ∧ plan.response = .redeem := by
    simp only [plan, planRedeem, request, bind_ok, pure_ok]
    exact ⟨_, ⟨after, computed, rfl⟩, rfl, rfl, rfl⟩
  obtain ⟨plan, planned, moves, written, answered⟩ := planned
  obtain ⟨returned, carried⟩ := transact_of_plan planned (moves ▸ applied)
  refine ⟨returned.trans (answered ▸ rfl), after.position, ?_, ?_, ?_, ?_⟩
  · change (e.transact owner request).engine.store.positions.get? (owner, denom) = _
    rw [carried]
    simp [Engine.record, written, Store.update, Store.setPosition, Store.setCollateralPool, left,
      owned, of, Coin.zero]
  · rw [left]; rfl
  · rw [left]; rfl
  · rw [left]; exact leaving.debtFree

/-- After every run from valid parameters and in any block, whoever has a position without debt in
an enabled asset can redeem exactly what the position holds, to any receiver, as long as the asset
and the native token have positive prices; and then the position is empty. -/
theorem run_debtFree_leaves {params : Params} (valid : params.validate = .ok ())
    (accounts : ModuleAccounts) (actions : List Action) (height : Height) {position : Position}
    (leaving : ((fresh params accounts).run actions).MayLeave owner denom position)
    (receiver : Option Principal) :
    let e := ((fresh params accounts).run actions).beginBlock height
    let request := .redeem ⟨receiver, position.collateral, position.nativeLocked⟩
    let receipt := e.transact owner request
    receipt.result = .ok .redeem ∧ ∃ left,
      receipt.engine.store.positions.get? (owner, denom) = some left ∧
        left.collateral.amount = 0 ∧ left.nativeLocked.amount = 0 ∧
        left.stableDebt.amount = 0 := by
  intro e
  have reached : e = (fresh params accounts).run (actions ++ [.beginBlock height]) := by
    rw [run_append]
    rfl
  have sound : e.Sound := reached ▸ run_sound (fresh_sound params accounts) _
  have healthy : e.Healthy := reached ▸ run_healthy valid accounts _
  -- Neither positions nor prices change when a block begins.
  have leaving' : e.MayLeave owner denom position :=
    ⟨leaving.stored, leaving.debtFree, leaving.enabled, leaving.priced, leaving.nativePriced⟩
  exact transact_leaves sound healthy leaving' receiver

/-- A borrower who has repaid the loan and its fee leaves much later, to someone else. -/
theorem run_debtFree_leaves_loanRun :
    let borrower : Principal := ⟨[1], by decide⟩
    let friend : Principal := ⟨[2], by decide⟩
    let e := (fresh .initial .initial).run
      (loanRun.take 9 ++
        [.fund (.user borrower) ⟨stableDenom, 5⟩,
          .transact borrower (.repay ⟨"ether", ⟨stableDenom, 505⟩⟩)])
    Params.initial.validate = .ok () ∧
      e.MayLeave borrower "ether"
        ⟨borrower, ⟨"ether", 1000⟩, ⟨stableDenom, 0⟩, ⟨nativeDenom, 40⟩, ⟨stableDenom, 0⟩, 0⟩ ∧
      ((e.beginBlock 3000000).transact borrower
        (.redeem ⟨some friend, ⟨"ether", 1000⟩, ⟨nativeDenom, 40⟩⟩)).result = .ok .redeem := by
  intro borrower friend e
  have valid : Params.initial.validate = .ok () := by decide +kernel
  have leaving : e.MayLeave borrower "ether"
      ⟨borrower, ⟨"ether", 1000⟩, ⟨stableDenom, 0⟩, ⟨nativeDenom, 40⟩, ⟨stableDenom, 0⟩, 0⟩ :=
    { stored := by decide +kernel
      debtFree := rfl
      enabled := by
        have enabled : (e.store.collateralParams.get? "ether").any (·.enabled) = true := by
          decide +kernel
        exact (Option.any_eq_true _ _).mp enabled
      priced := ⟨1, by decide +kernel, by decide⟩
      nativePriced := ⟨1, by decide +kernel, by decide⟩ }
  exact ⟨valid, leaving,
    (run_debtFree_leaves valid .initial _ 3000000 leaving (some friend)).1⟩

end Engine

end Stablecoin
