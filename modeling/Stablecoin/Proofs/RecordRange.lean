import Stablecoin.Proofs.PlanEffect

/-!
# Amounts of the collateral records

Every amount in a position, its pool and the total is of one fixed denomination and in range. What
is loaded is so, what an operation adds is checked, and what it takes away leaves less.
-/
namespace Stablecoin

/-- A coin of a denomination, with an amount in range. -/
structure Coin.InRange (c : Coin) (denom : Denom) : Prop where
  denom : c.denom = denom
  amount : c.amount < amountBound

structure CollateralTotal.InRange (total : CollateralTotal) : Prop where
  stableDebt : total.stableDebt.InRange stableDenom
  nativeLocked : total.nativeLocked.InRange nativeDenom

structure CollateralPool.InRange (pool : CollateralPool) (denom : Denom) : Prop where
  collateral : pool.collateral.InRange denom
  stableDebt : pool.stableDebt.InRange stableDenom
  nativeLocked : pool.nativeLocked.InRange nativeDenom

structure Position.InRange (position : Position) (denom : Denom) : Prop where
  collateral : position.collateral.InRange denom
  stableDebt : position.stableDebt.InRange stableDenom
  nativeLocked : position.nativeLocked.InRange nativeDenom
  interest : position.interest.InRange stableDenom

structure PositionRecords.InRange (r : PositionRecords) (denom : Denom) : Prop where
  total : r.total.InRange
  pool : r.pool.InRange denom
  position : r.position.InRange denom

namespace Coin.InRange

variable {c result : Coin} {denom : Denom} {n : Nat}

theorem zero (denom : Denom) : (Coin.zero denom).InRange denom :=
  ⟨rfl, (by decide : 0 < amountBound)⟩

theorem add (inRange : c.InRange denom) (added : c.add n = .ok result) : result.InRange denom := by
  obtain ⟨fits, rfl⟩ := Coin.add_ok.mp added
  exact ⟨inRange.denom, fits⟩

theorem sub (inRange : c.InRange denom) (left : c.sub n = .ok result) : result.InRange denom := by
  obtain ⟨-, rfl⟩ := Coin.sub_ok.mp left
  exact ⟨inRange.denom, Nat.lt_of_le_of_lt (Nat.sub_le _ _) inRange.amount⟩

theorem withdraw {amount : Coin} (inRange : c.InRange denom)
    (left : c.withdraw amount = .ok result) : result.InRange denom := by
  obtain ⟨-, rfl⟩ := Coin.withdraw_ok.mp left
  exact ⟨inRange.denom, Nat.lt_of_le_of_lt (Nat.sub_le _ _) inRange.amount⟩

end Coin.InRange

theorem CollateralTotal.empty_inRange : CollateralTotal.empty.InRange :=
  ⟨.zero _, .zero _⟩

theorem CollateralPool.empty_inRange (denom : Denom) : (CollateralPool.empty denom).InRange denom :=
  ⟨.zero _, .zero _, .zero _⟩

theorem Position.opened_inRange (owner : Principal) (denom : Denom) (height : Height) :
    (Position.opened owner denom height).InRange denom :=
  ⟨.zero _, .zero _, .zero _, .zero _⟩

/-! ### Operations -/

namespace PositionRecords.InRange

variable {r after : PositionRecords} {denom : Denom}

theorem settle {rate : Decimal} {height blocksPerYear : Height} (inRange : r.InRange denom)
    (returned : r.settle rate height blocksPerYear = .ok after) : after.InRange denom := by
  obtain ⟨total, pool, position⟩ := inRange
  unfold PositionRecords.settle at returned
  dsimp only at returned
  split at returned
  next =>
    cases pure_ok.mp returned
    exact ⟨total, pool, position⟩
  next =>
    simp only [bind_ok, pure_ok] at returned
    obtain ⟨_, -, _, -, _, -, _, accrued, _, debt, _, poolDebt, _, totalDebt, rfl⟩ := returned
    exact
      { total := { total with stableDebt := total.stableDebt.add totalDebt }
        pool := { pool with stableDebt := pool.stableDebt.add poolDebt }
        position :=
          { position with
            stableDebt := position.stableDebt.add debt
            interest := position.interest.add accrued } }

theorem deposit {collateral native : Coin} (inRange : r.InRange denom)
    (returned : r.deposit collateral native = .ok after) : after.InRange denom := by
  obtain ⟨total, pool, position⟩ := inRange
  simp only [PositionRecords.deposit, bind_ok, pure_ok] at returned
  obtain ⟨_, held, _, pooled, _, locked, _, poolLocked, _, totalLocked, rfl⟩ := returned
  exact
    { total := { total with nativeLocked := total.nativeLocked.add totalLocked }
      pool :=
        { pool with
          collateral := pool.collateral.add pooled
          nativeLocked := pool.nativeLocked.add poolLocked }
      position :=
        { position with
          collateral := position.collateral.add held
          nativeLocked := position.nativeLocked.add locked } }

theorem redeem {collateral native : Coin} (inRange : r.InRange denom)
    (returned : r.redeem collateral native = .ok after) : after.InRange denom := by
  obtain ⟨total, pool, position⟩ := inRange
  simp only [PositionRecords.redeem, bind_ok, pure_ok] at returned
  obtain ⟨_, held, _, pooled, _, locked, _, poolLocked, _, totalLocked, rfl⟩ := returned
  exact
    { total := { total with nativeLocked := total.nativeLocked.withdraw totalLocked }
      pool :=
        { pool with
          collateral := pool.collateral.withdraw pooled
          nativeLocked := pool.nativeLocked.withdraw poolLocked }
      position :=
        { position with
          collateral := position.collateral.withdraw held
          nativeLocked := position.nativeLocked.withdraw locked } }

theorem borrow {amount : Nat} (inRange : r.InRange denom)
    (returned : r.borrow amount = .ok after) : after.InRange denom := by
  obtain ⟨total, pool, position⟩ := inRange
  simp only [PositionRecords.borrow, bind_ok, pure_ok] at returned
  obtain ⟨_, debt, _, poolDebt, _, totalDebt, rfl⟩ := returned
  exact
    { total := { total with stableDebt := total.stableDebt.add totalDebt }
      pool := { pool with stableDebt := pool.stableDebt.add poolDebt }
      position := { position with stableDebt := position.stableDebt.add debt } }

end PositionRecords.InRange

/-- Every amount in the collateral records of a store is in range. -/
structure Store.InRange (s : Store) : Prop where
  total : ∀ total, s.collateralTotal = some total → total.InRange
  pool : ∀ denom pool, s.collateralPools.get? denom = some pool → pool.InRange denom
  position : ∀ owner denom position,
    s.positions.get? (owner, denom) = some position → position.InRange denom

namespace Engine

variable {e : Engine}

theorem position_inRange {owner : Principal} {denom : Denom} {mayOpen : Bool} {r : PositionRecords}
    (inRange : e.store.InRange) (loaded : e.position owner denom mayOpen = .ok r) :
    r.InRange denom := by
  obtain ⟨total, pool, stored | ⟨-, -, opened⟩⟩ := position_ok loaded
  · exact ⟨inRange.total _ total, inRange.pool _ _ pool, inRange.position _ _ _ stored⟩
  · refine ⟨inRange.total _ total, inRange.pool _ _ pool, ?_⟩
    rw [opened]
    exact Position.opened_inRange owner denom e.height

theorem settledPosition_inRange {owner : Principal} {params : CollateralParams} {mayOpen : Bool}
    {settled : PositionRecords} (inRange : e.store.InRange)
    (returned : e.settledPosition owner params mayOpen = .ok settled) :
    settled.InRange params.denom := by
  obtain ⟨before, loaded, accrued⟩ := settledPosition_ok returned
  exact (position_inRange inRange loaded).settle accrued

theorem afterRepay_inRange {owner : Principal} {denom : Denom} {repayInMax : Coin}
    {parts : Repayment} {after : PositionRecords} (inRange : e.store.InRange)
    (returned : e.afterRepay owner denom repayInMax = .ok (parts, after)) :
    ∃ named, after.InRange named := by
  simp only [afterRepay, bind_ok, pure_ok, Prod.mk.injEq] at returned
  obtain ⟨_, -, params, -, settled, loaded, _, -, _, debt, _, interest, _, poolDebt, _, totalDebt,
    -, rfl⟩ := returned
  obtain ⟨total, pool, position⟩ := settledPosition_inRange inRange loaded
  exact
    ⟨params.denom,
      { total := { total with stableDebt := total.stableDebt.sub totalDebt }
        pool := { pool with stableDebt := pool.stableDebt.sub poolDebt }
        position :=
          { position with
            stableDebt := position.stableDebt.sub debt
            interest := position.interest.sub interest } }⟩

theorem afterLiquidate_inRange {debtor : Principal} {collateral repayInMax : Coin}
    {parts : Liquidation} {after : PositionRecords} (inRange : e.store.InRange)
    (returned : e.afterLiquidate debtor collateral repayInMax = .ok (parts, after)) :
    ∃ named, after.InRange named := by
  simp only [afterLiquidate, bind_ok, pure_ok, Prod.mk.injEq] at returned
  obtain ⟨_, -, params, -, _, -, settled, loaded, _, -, _, -, _, -, _, -, _, -, _, -, _, -, _, -,
    _, -, _, -, _, -, _, interest, _, debt, _, poolDebt, _, totalDebt, _, held, _, pooled, -,
    rfl⟩ := returned
  obtain ⟨total, pool, position⟩ := settledPosition_inRange inRange loaded
  exact
    ⟨params.denom,
      { total := { total with stableDebt := total.stableDebt.sub totalDebt }
        pool :=
          { pool with
            stableDebt := pool.stableDebt.sub poolDebt
            collateral := pool.collateral.withdraw pooled }
        position :=
          { position with
            stableDebt := position.stableDebt.sub debt
            interest := position.interest.sub interest
            collateral := position.collateral.sub held } }⟩

/-- A plan writes amounts in range. -/
theorem plan_inRange {sender : Principal} {request : Request} {plan : Plan}
    {after : PositionRecords} (inRange : e.store.InRange)
    (planned : e.plan sender request = .ok plan) (written : plan.update = .position after) :
    ∃ denom, after.InRange denom := by
  cases request with
  | mint r =>
    obtain ⟨-, _, _, _, -, -, -, -, -, swapped, -⟩ := planMint_ok planned
    cases swapped.symm.trans written
  | burn r =>
    obtain ⟨-, _, _, _, -, -, -, -, -, -, -, swapped, -⟩ := planBurn_ok planned
    cases swapped.symm.trans written
  | buyback r =>
    obtain ⟨_, _, _, -, -, -, -, -, swapped, -⟩ := planBuyback_ok planned
    cases swapped.symm.trans written
  | reback r =>
    obtain ⟨-, _, _, _, -, -, -, -, -, swapped, -⟩ := planReback_ok planned
    cases swapped.symm.trans written
  | deposit r =>
    obtain ⟨_, computed, -, update, -⟩ := planDeposit_ok planned
    cases update.symm.trans written
    obtain ⟨-, params, _, -, loaded, deposited, -⟩ := afterDeposit_ok computed
    exact ⟨params.denom, (settledPosition_inRange inRange loaded).deposit deposited⟩
  | redeem r =>
    obtain ⟨_, computed, -, update, -⟩ := planRedeem_ok planned
    cases update.symm.trans written
    obtain ⟨-, params, _, _, _, -, loaded, redeemed, -⟩ := afterRedeem_ok computed
    exact ⟨params.denom, (settledPosition_inRange inRange loaded).redeem redeemed⟩
  | borrow r =>
    obtain ⟨_, _, computed, -, update, -⟩ := planBorrow_ok planned
    cases update.symm.trans written
    obtain ⟨-, params, _, _, _, _, -, -, -, loaded, -, borrowed, -⟩ := afterBorrow_ok computed
    exact ⟨params.denom, (settledPosition_inRange inRange loaded).borrow borrowed⟩
  | repay r =>
    obtain ⟨_, _, computed, -, update, -⟩ := planRepay_ok planned
    cases update.symm.trans written
    exact afterRepay_inRange inRange computed
  | liquidate r =>
    obtain ⟨_, _, computed, -, update, -⟩ := planLiquidate_ok planned
    cases update.symm.trans written
    exact afterLiquidate_inRange inRange computed

end Engine

end Stablecoin
