import Stablecoin.Proofs.Steps
import Stablecoin.Proofs.Valuation

/-!
# Nobody else can take what is yours

A request takes coins from its sender only. It works on one position at most, and on that of another
user only to add to it or, once its debt has reached the liquidation value, to sell its collateral.
-/
namespace Stablecoin

namespace Request

/-- The position that a request of a sender works on, if it works on one. -/
def position? (sender : Principal) : Request → Option (Principal × Denom)
  | deposit r => some (r.receiver.getD sender, r.collateralIn.denom)
  | redeem r => some (sender, r.collateralOut.denom)
  | borrow r => some (sender, r.denom)
  | repay r => some (sender, r.denom)
  | liquidate r => some (r.debtor, r.collateral.denom)
  | mint _ | burn _ | buyback _ | reback _ => none

/-- A request to liquidate a position. -/
def Liquidates (request : Request) (debtor : Principal) (denom : Denom) : Prop :=
  ∃ r, request = .liquidate r ∧ r.debtor = debtor ∧ r.collateral.denom = denom

end Request

namespace Engine

/-- With interest up to now, the debt of a position has reached its liquidation value. -/
def Liquidatable (e : Engine) (debtor : Principal) (denom : Denom) : Prop :=
  ∃ risk price settled value liquidationValue debt,
    e.collateralParams denom = .ok risk ∧ e.price denom = .ok price ∧
    e.settledPosition debtor risk false = .ok settled ∧
    settled.position.collateral.worth price = .ok value ∧
    value.mul risk.liquidationThreshold = .ok liquidationValue ∧
    settled.position.stableDebt.toDecimal = .ok debt ∧ liquidationValue ≤ debt

end Engine

/-- A position has lost nothing but collateral, and that only if it was liquidated. -/
structure Position.Spared (before left : Position) (liquidated : Prop) : Prop where
  native : before.nativeLocked.amount ≤ left.nativeLocked.amount
  principal :
    (left.stableDebt.amount : Int) - left.interest.amount
      ≤ before.stableDebt.amount - before.interest.amount
  collateral : before.collateral.amount ≤ left.collateral.amount ∨ liquidated

theorem Position.Spared.refl (p : Position) (liquidated : Prop) : p.Spared p liquidated :=
  ⟨Nat.le_refl _, Int.le_refl _, .inl (Nat.le_refl _)⟩

/-- A change of another user's position takes nothing but collateral, and that only from a position
that is liquidated. -/
structure PositionChange.Spares (change : PositionChange) (liquidated : Prop) : Prop where
  native : 0 ≤ change.native
  principal : change.debt ≤ change.interest
  collateral : 0 ≤ change.collateral ∨ liquidated

theorem PositionRecords.Changed.spared {before after : PositionRecords} {change : PositionChange}
    {liquidated : Prop} (changed : before.Changed change after)
    (spares : change.Spares liquidated) :
    before.position.Spared after.position liquidated := by
  obtain ⟨native, principal, collateral⟩ := spares
  have locked := changed.native
  have debt := changed.debt
  have interest := changed.interest
  have held := changed.collateral
  refine ⟨by omega, by omega, ?_⟩
  cases collateral with
  | inl kept => exact .inl (by omega)
  | inr liquidated => exact .inr liquidated

/-! ### Coins -/

/-- A batch that takes nothing from an account leaves it what it has. -/
theorem batchFlow_nonneg {ops : List LedgerOp} {account : Account}
    (spared : ∀ op ∈ ops, op.source ≠ some account) (denom : Denom) :
    0 ≤ batchFlow ops account denom := by
  induction ops with
  | nil => exact Int.le_refl 0
  | cons op rest ih =>
    have later := ih fun other member => spared other (List.mem_cons_of_mem _ member)
    have added := amountIn_nonneg op.coins denom
    have first : 0 ≤ op.flow account denom := by
      rw [LedgerOp.flow, if_neg (spared op List.mem_cons_self)]
      split <;> omega
    rw [batchFlow_cons]
    omega

namespace Engine

variable {e : Engine} {sender : Principal} {request : Request} {plan : Plan}

/-- No plan takes coins from a user but its sender. -/
theorem plan_source (planned : e.plan sender request = .ok plan) {op : LedgerOp}
    (member : op ∈ plan.moves) {user : Principal} (source : op.source = some (.user user)) :
    user = sender := by
  have moves : ∀ op ∈ plan.moves, ∀ user, op.source = some (.user user) → user = sender := by
    cases request with
    | mint r =>
      obtain ⟨-, _, _, _, -, -, -, -, moves, -⟩ := planMint_ok planned
      simp [moves, LedgerOp.source, eq_comm]
    | burn r =>
      obtain ⟨-, _, _, _, -, -, -, -, -, -, moves, -⟩ := planBurn_ok planned
      simp [moves, LedgerOp.source, eq_comm]
    | buyback r =>
      obtain ⟨_, _, _, -, -, -, -, moves, -⟩ := planBuyback_ok planned
      simp [moves, LedgerOp.source, eq_comm]
    | reback r =>
      obtain ⟨-, _, _, _, -, -, -, -, moves, -⟩ := planReback_ok planned
      simp [moves, LedgerOp.source, eq_comm]
    | borrow r =>
      obtain ⟨_, _, -, moves, -⟩ := planBorrow_ok planned
      simp [moves, LedgerOp.source]
    | repay r =>
      obtain ⟨_, _, -, moves, -⟩ := planRepay_ok planned
      simp [moves, LedgerOp.source, eq_comm]
    | deposit r =>
      obtain ⟨_, -, moves, -⟩ := planDeposit_ok planned
      simp [moves, LedgerOp.source, eq_comm]
    | redeem r =>
      obtain ⟨_, -, moves, -⟩ := planRedeem_ok planned
      simp [moves, LedgerOp.source]
    | liquidate r =>
      obtain ⟨_, _, -, moves, -⟩ := planLiquidate_ok planned
      simp [moves, LedgerOp.source, eq_comm]
  exact moves op member user source

/-! ### Positions -/

/-- A plan writes the records of a swap, or the position that its request works on. -/
theorem plan_update (named : e.store.Named) (planned : e.plan sender request = .ok plan) :
    (∃ records, plan.update = .backing records ∧ request.position? sender = none) ∨
      ∃ after, plan.update = .position after ∧
        request.position? sender
          = some (after.position.owner, after.position.collateral.denom) := by
  cases request with
  | mint r =>
    obtain ⟨-, _, _, after, -, -, -, -, -, written, -⟩ := planMint_ok planned
    exact .inl ⟨after, written, rfl⟩
  | burn r =>
    obtain ⟨-, _, _, after, -, -, -, -, -, -, -, written, -⟩ := planBurn_ok planned
    exact .inl ⟨after, written, rfl⟩
  | buyback r =>
    obtain ⟨_, _, after, -, -, -, -, -, written, -⟩ := planBuyback_ok planned
    exact .inl ⟨after, written, rfl⟩
  | reback r =>
    obtain ⟨-, _, _, after, -, -, -, -, -, written, -⟩ := planReback_ok planned
    exact .inl ⟨after, written, rfl⟩
  | deposit r =>
    obtain ⟨after, computed, -, written, -⟩ := planDeposit_ok planned
    obtain ⟨-, _, _, known, loaded, deposited, -⟩ := afterDeposit_ok computed
    have changed := PositionRecords.deposit_changed deposited
    obtain ⟨owned, of⟩ := settledPosition_owned named known loaded changed
    exact .inr ⟨after, written, by rw [owned, of]; rfl⟩
  | redeem r =>
    obtain ⟨after, computed, -, written, -⟩ := planRedeem_ok planned
    obtain ⟨-, _, _, _, _, known, loaded, redeemed, -⟩ := afterRedeem_ok computed
    have changed := PositionRecords.redeem_changed redeemed
    obtain ⟨owned, of⟩ := settledPosition_owned named known loaded changed
    exact .inr ⟨after, written, by rw [owned, of]; rfl⟩
  | borrow r =>
    obtain ⟨_, after, computed, -, written, -⟩ := planBorrow_ok planned
    obtain ⟨-, _, _, _, _, _, known, -, -, loaded, -, borrowed, -⟩ := afterBorrow_ok computed
    have changed := PositionRecords.borrow_changed borrowed
    obtain ⟨owned, of⟩ := settledPosition_owned named known loaded changed
    exact .inr ⟨after, written, by rw [owned, of]; rfl⟩
  | repay r =>
    obtain ⟨_, after, computed, -, written, -⟩ := planRepay_ok planned
    obtain ⟨-, _, _, _, _, known, loaded, -, -, -, -, changed⟩ := afterRepay_ok computed
    obtain ⟨owned, of⟩ := settledPosition_owned named known loaded changed
    exact .inr ⟨after, written, by rw [owned, of]; rfl⟩
  | liquidate r =>
    obtain ⟨_, after, computed, -, written, -⟩ := planLiquidate_ok planned
    obtain ⟨-, _, _, _, _, _, _, _, _, _, _, _, known, -, loaded, -, -, -, -, -, -, -, -, -, -, -,
      -, changed⟩ := afterLiquidate_ok computed
    obtain ⟨owned, of⟩ := settledPosition_owned named known loaded changed
    exact .inr ⟨after, written, by rw [owned, of]; rfl⟩

theorem requireLiquidatable_ok {position : Position} {risk : CollateralParams} {price : Decimal}
    {result : Unit} :
    requireLiquidatable position risk price = .ok result ↔
      ∃ value, position.collateral.worth price = .ok value ∧
        ∃ liquidationValue, value.mul risk.liquidationThreshold = .ok liquidationValue ∧
          ∃ debt, position.stableDebt.toDecimal = .ok debt ∧ liquidationValue ≤ debt := by
  simp only [requireLiquidatable, bind_ok, require_ok, Coin.worth_pegTarget]

/-- A request that works on the position of another user adds to it or liquidates it. -/
theorem plan_spares (named : e.store.Named) (planned : e.plan sender request = .ok plan)
    {owner : Principal} {denom : Denom} (touched : request.position? sender = some (owner, denom))
    (other : owner ≠ sender) :
    ∃ mayOpen before after change, e.position owner denom mayOpen = .ok before ∧
      plan.update = .position after ∧ before.Changed change after ∧
      change.Spares (request.Liquidates owner denom ∧ e.Liquidatable owner denom) := by
  cases request with
  | mint | burn | buyback | reback => cases touched
  | redeem | borrow | repay =>
    obtain ⟨rfl, -⟩ := Prod.mk.inj (Option.some.inj touched)
    exact absurd rfl other
  | deposit r =>
    cases touched
    obtain ⟨after, computed, -, written, -⟩ := planDeposit_ok planned
    obtain ⟨-, _, settled, known, loaded, deposited, -⟩ := afterDeposit_ok computed
    obtain ⟨before, found, interest, accrued⟩ := settledPosition_changed named known loaded
    have changed := accrued.trans (PositionRecords.deposit_changed deposited)
    refine ⟨_, before, after, _, found, written, changed, ?_⟩
    exact ⟨by simp, by simp, .inl (by simp)⟩
  | liquidate r =>
    cases touched
    obtain ⟨_, after, computed, -, written, -⟩ := planLiquidate_ok planned
    obtain ⟨-, risk, price, settled, _, _, _, _, _, _, repayDebt, repayInterest, known, priced,
      loaded, reached, -, -, -, -, -, -, -, -, -, shared, -, liquidated⟩ :=
      afterLiquidate_ok computed
    obtain ⟨before, found, interest, accrued⟩ := settledPosition_changed named known loaded
    obtain ⟨value, valued, limit, limited, debt, owed, covered⟩ := requireLiquidatable_ok.mp reached
    have changed := accrued.trans liquidated
    refine ⟨_, before, after, _, found, written, changed, ?_⟩
    -- Interest is cleared first, so the debt falls by no less than the interest in it.
    refine ⟨by simp, by dsimp only; omega, .inr ⟨⟨r, rfl, rfl, rfl⟩, ?_⟩⟩
    exact ⟨risk, price, settled, value, limit, debt, known, priced, loaded, valued, limited, owed,
      covered⟩

/-! ### Transactions -/

/-- A request takes nothing from the balances of a user other than its sender. -/
theorem transact_balance_le (sender : Principal) (request : Request) {other : Principal}
    (notSender : other ≠ sender) (denom : Denom) :
    e.ledger.balance (.user other) denom
      ≤ (e.transact sender request).engine.ledger.balance (.user other) denom := by
  cases returned : (e.transact sender request).result with
  | error failure => rw [transact_refused returned]
  | ok response =>
    obtain ⟨plan, ledger, planned, applied, -, carried⟩ := transact_ok returned
    have moved := (Ledger.apply_shifted applied).balance (.user other) denom
    rw [batchFlow_dropZeros] at moved
    have spared : ∀ op ∈ plan.moves, op.source ≠ some (.user other) :=
      fun op member source => notSender (plan_source planned member source)
    have gained := batchFlow_nonneg spared denom
    rw [carried]
    change _ ≤ ledger.balance (.user other) denom
    omega

/-- A position that is loaded has what the store has under its name. -/
theorem position_amounts {owner : Principal} {denom : Denom} {mayOpen : Bool} {r : PositionRecords}
    (loaded : e.position owner denom mayOpen = .ok r) :
    r.position = e.store.position owner denom ∨
      r.position = .opened owner denom e.height ∧
        e.store.position owner denom = .opened owner denom 0 := by
  unfold Store.position
  obtain ⟨-, -, stored | ⟨missing, -, opened⟩⟩ := position_ok loaded
  · exact .inl (by rw [stored]; rfl)
  · exact .inr ⟨opened, by rw [missing]; rfl⟩

/-- The position of a user other than the sender loses nothing, except for collateral if its debt
has reached the liquidation value and the request liquidates it. -/
theorem transact_spares (named : e.store.Named) (sender : Principal) (request : Request)
    {other : Principal} (notSender : other ≠ sender) (denom : Denom) :
    (e.store.position other denom).Spared
      ((e.transact sender request).engine.store.position other denom)
      (request.Liquidates other denom ∧ e.Liquidatable other denom) := by
  cases returned : (e.transact sender request).result with
  | error failure =>
    rw [transact_refused returned]
    exact .refl _ _
  | ok response =>
    obtain ⟨plan, ledger, planned, -, -, carried⟩ := transact_ok returned
    rw [carried]
    change Position.Spared _ ((e.store.update plan.update).position other denom) _
    by_cases touched : request.position? sender = some (other, denom)
    · obtain ⟨mayOpen, before, after, change, loaded, written, changed, spares⟩ :=
        plan_spares named planned touched notSender
      have spared := changed.spared spares
      obtain ⟨owned, of⟩ := position_owned named loaded
      have left : (e.store.update plan.update).position other denom = after.position := by
        simp [written, Store.update, Store.position, Store.setPosition, Store.setCollateralPool,
          changed.owner, changed.denom, owned, of]
      rw [left]
      obtain same | ⟨opened, missing⟩ := position_amounts loaded
      · rwa [← same]
      · -- A position that was opened just now was empty, whatever its block.
        rw [opened] at spared
        rw [missing]
        exact ⟨spared.native, spared.principal, spared.collateral⟩
    · have untouched : (e.store.update plan.update).position other denom
          = e.store.position other denom := by
        obtain ⟨records, written, -⟩ | ⟨after, written, works⟩ := plan_update named planned
        · rw [written]
          rfl
        · have elsewhere : (after.position.owner, after.position.collateral.denom)
              ≠ (other, denom) := fun same => touched (same ▸ works)
          simp [written, Store.update, Store.position, Store.setPosition,
            Store.setCollateralPool, Table.get?_insert, elsewhere.symm]
      rw [untouched]
      exact .refl _ _

/-- After every run, a request takes nothing from a user other than its sender: no balance falls,
and no position loses locked tokens or gains principal. It takes collateral only as a liquidation
of a position whose debt, with interest, has reached the liquidation value. -/
theorem run_sparesOthers (params : Params) (accounts : ModuleAccounts) (actions : List Action)
    (sender : Principal) (request : Request) {other : Principal} (notSender : other ≠ sender)
    (denom : Denom) :
    let e := (fresh params accounts).run actions
    let after := (e.transact sender request).engine
    e.ledger.balance (.user other) denom ≤ after.ledger.balance (.user other) denom ∧
      (e.store.position other denom).Spared (after.store.position other denom)
        (request.Liquidates other denom ∧ e.Liquidatable other denom) := by
  intro e after
  have sound : e.Sound := run_sound (fresh_sound params accounts) actions
  exact ⟨transact_balance_le sender request notSender denom,
    transact_spares sound.keyed.named sender request notSender denom⟩

/-- A liquidation takes ether from the borrower only once its price has fallen far enough. -/
theorem run_sparesOthers_loanRun :
    let borrower : Principal := ⟨[1], by decide⟩
    let liquidator : Principal := ⟨[2], by decide⟩
    let e := (fresh .initial .initial).run loanRun.dropLast
    let request := .liquidate ⟨none, borrower, ⟨"ether", 100⟩, ⟨stableDenom, 1000⟩⟩
    let after := (e.transact liquidator request).engine
    borrower ≠ liquidator ∧ (e.store.position borrower "ether").collateral.amount = 1000 ∧
      (after.store.position borrower "ether").collateral.amount = 900 ∧
      e.Liquidatable borrower "ether" := by
  intro borrower liquidator e request after
  have others : borrower ≠ liquidator := by decide
  have before : (e.store.position borrower "ether").collateral.amount = 1000 := by decide +kernel
  have left : (after.store.position borrower "ether").collateral.amount = 900 := by decide +kernel
  obtain ⟨-, spared⟩ :=
    run_sparesOthers .initial .initial loanRun.dropLast liquidator request others "ether"
  refine ⟨others, before, left, ?_⟩
  -- Collateral was lost, so it must have been due.
  obtain kept | ⟨-, due⟩ := spared.collateral
  · rw [before, left] at kept
    exact absurd kept (by decide)
  · exact due

end Engine

end Stablecoin
