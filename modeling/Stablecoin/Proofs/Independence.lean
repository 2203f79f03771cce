import Stablecoin.Proofs.Parties

/-!
# What an operation on a position depends on

An operation reads the position that it works on, the parameters, the prices and the block. Of the
pool and the total it only asks whether they have room. So where two engines agree on the former, a
request that is planned in both moves the same coins, answers the same, makes the same of the
position, and adds the same to each of the two pools and totals.
-/
namespace Stablecoin

/-! ### Amounts added to -/

/-- A coin of the same denomination whose amount differs by `delta`. -/
structure Coin.Moved (c : Coin) (delta : Int) (after : Coin) : Prop where
  denom : after.denom = c.denom
  amount : (after.amount : Int) = c.amount + delta

theorem Coin.Moved.refl (c : Coin) : c.Moved 0 c where
  denom := rfl
  amount := by simp

theorem Coin.Moved.add {c sum : Coin} {n : Nat} (added : c.add n = .ok sum) : c.Moved n sum := by
  obtain ⟨-, rfl⟩ := Coin.add_ok.mp added
  exact ⟨rfl, by simp⟩

theorem Coin.Moved.sub {c rest : Coin} {n : Nat} (left : c.sub n = .ok rest) :
    c.Moved (-n) rest := by
  obtain ⟨covered, rfl⟩ := Coin.sub_ok.mp left
  exact ⟨rfl, by dsimp only; omega⟩

theorem Coin.Moved.withdraw {c amount rest : Coin} (left : c.withdraw amount = .ok rest) :
    c.Moved (-amount.amount) rest := by
  obtain ⟨covered, rfl⟩ := Coin.withdraw_ok.mp left
  exact ⟨rfl, by dsimp only; omega⟩

theorem Coin.Moved.trans {first second third : Coin} {delta delta' : Int}
    (earlier : first.Moved delta second) (later : second.Moved delta' third) :
    first.Moved (delta + delta') third where
  denom := later.denom.trans earlier.denom
  amount := by rw [later.amount, earlier.amount, Int.add_assoc]

theorem Coin.Moved.unique {c one other : Coin} {delta : Int} (moved : c.Moved delta one)
    (moved' : c.Moved delta other) : one = other := by
  have denoms := moved.denom.trans moved'.denom.symm
  have amounts := moved.amount.trans moved'.amount.symm
  cases one
  cases other
  simp_all

/-- The order of two moves does not matter. -/
theorem Coin.Moved.comm {c once both other swapped : Coin} {delta delta' : Int}
    (first : c.Moved delta once) (later : once.Moved delta' both) (first' : c.Moved delta' other)
    (later' : other.Moved delta swapped) : both = swapped :=
  (first.trans later).unique (Int.add_comm delta delta' ▸ first'.trans later')

/-- A pool after a change of one of its positions. -/
structure CollateralPool.Moved (pool : CollateralPool) (change : PositionChange)
    (after : CollateralPool) : Prop where
  collateral : pool.collateral.Moved change.collateral after.collateral
  stableDebt : pool.stableDebt.Moved change.debt after.stableDebt
  nativeLocked : pool.nativeLocked.Moved change.native after.nativeLocked

/-- The total after a change of one of the positions. -/
structure CollateralTotal.Moved (total : CollateralTotal) (change : PositionChange)
    (after : CollateralTotal) : Prop where
  stableDebt : total.stableDebt.Moved change.debt after.stableDebt
  nativeLocked : total.nativeLocked.Moved change.native after.nativeLocked

theorem CollateralPool.Moved.unique {pool one other : CollateralPool} {change : PositionChange}
    (moved : pool.Moved change one) (moved' : pool.Moved change other) : one = other := by
  have collateral := moved.collateral.unique moved'.collateral
  have stableDebt := moved.stableDebt.unique moved'.stableDebt
  have nativeLocked := moved.nativeLocked.unique moved'.nativeLocked
  cases one
  cases other
  simp_all

theorem CollateralPool.Moved.comm {pool once both other swapped : CollateralPool}
    {change change' : PositionChange} (first : pool.Moved change once)
    (later : once.Moved change' both) (first' : pool.Moved change' other)
    (later' : other.Moved change swapped) : both = swapped := by
  have collateral := first.collateral.comm later.collateral first'.collateral later'.collateral
  have stableDebt := first.stableDebt.comm later.stableDebt first'.stableDebt later'.stableDebt
  have nativeLocked :=
    first.nativeLocked.comm later.nativeLocked first'.nativeLocked later'.nativeLocked
  cases both
  cases swapped
  simp_all

theorem CollateralTotal.Moved.comm {total once both other swapped : CollateralTotal}
    {change change' : PositionChange} (first : total.Moved change once)
    (later : once.Moved change' both) (first' : total.Moved change' other)
    (later' : other.Moved change swapped) : both = swapped := by
  have stableDebt := first.stableDebt.comm later.stableDebt first'.stableDebt later'.stableDebt
  have nativeLocked :=
    first.nativeLocked.comm later.nativeLocked first'.nativeLocked later'.nativeLocked
  cases both
  cases swapped
  simp_all

namespace PositionRecords

/-- What positions share, the pool and the total, after a change of one of them. -/
structure SharedMoved (before : PositionRecords) (change : PositionChange)
    (after : PositionRecords) : Prop where
  pool : before.pool.Moved change after.pool
  total : before.total.Moved change after.total

theorem SharedMoved.refl (r : PositionRecords) : r.SharedMoved {} r where
  pool := ⟨.refl _, .refl _, .refl _⟩
  total := ⟨.refl _, .refl _⟩

theorem SharedMoved.trans {first second third : PositionRecords} {change change' : PositionChange}
    (earlier : first.SharedMoved change second) (later : second.SharedMoved change' third) :
    first.SharedMoved
      { collateral := change.collateral + change'.collateral
        debt := change.debt + change'.debt
        native := change.native + change'.native } third where
  pool :=
    { collateral := earlier.pool.collateral.trans later.pool.collateral
      stableDebt := earlier.pool.stableDebt.trans later.pool.stableDebt
      nativeLocked := earlier.pool.nativeLocked.trans later.pool.nativeLocked }
  total :=
    { stableDebt := earlier.total.stableDebt.trans later.total.stableDebt
      nativeLocked := earlier.total.nativeLocked.trans later.total.nativeLocked }

/-- Two copies of one position, each with a pool and a total of its own, that undergo the same
change. -/
structure InStep (before before' after after' : PositionRecords) : Prop where
  position : after'.position = after.position
  shared : ∃ change, before.SharedMoved change after ∧ before'.SharedMoved change after'

theorem InStep.trans {first first' second second' third third' : PositionRecords}
    (earlier : InStep first first' second second') (later : InStep second second' third third') :
    InStep first first' third third' where
  position := later.position
  shared := by
    obtain ⟨_, once, once'⟩ := earlier.shared
    obtain ⟨_, again, again'⟩ := later.shared
    exact ⟨_, once.trans again, once'.trans again'⟩

/-! ### Operations on records -/

variable {r r' after after' : PositionRecords}

theorem settle_inStep {rate : Decimal} {height blocksPerYear : Height}
    (same : r'.position = r.position) (returned : r.settle rate height blocksPerYear = .ok after)
    (returned' : r'.settle rate height blocksPerYear = .ok after') : InStep r r' after after' := by
  unfold settle at returned returned'
  rw [same] at returned'
  dsimp only at returned returned'
  split at returned
  next settled =>
    rw [if_pos settled] at returned'
    cases pure_ok.mp returned
    cases pure_ok.mp returned'
    exact ⟨same, _, .refl _, .refl _⟩
  next due =>
    rw [if_neg due] at returned'
    simp only [bind_ok, pure_ok] at returned returned'
    obtain ⟨_, -, _, owed, n, accrued, _, interest, _, debt, _, pooled, _, total, rfl⟩ := returned
    obtain ⟨_, -, _, owed', _, accrued', _, interest', _, debt', _, pooled', _, total', rfl⟩ :=
      returned'
    -- The interest comes from the position alone.
    cases owed.symm.trans owed'
    cases accrued.symm.trans accrued'
    cases interest.symm.trans interest'
    cases debt.symm.trans debt'
    refine ⟨rfl, { debt := n }, ?_, ?_⟩
    · exact ⟨⟨.refl _, .add pooled, .refl _⟩, .add total, .refl _⟩
    · exact ⟨⟨.refl _, .add pooled', .refl _⟩, .add total', .refl _⟩

theorem deposit_inStep {collateral native : Coin} (same : r'.position = r.position)
    (returned : r.deposit collateral native = .ok after)
    (returned' : r'.deposit collateral native = .ok after') : InStep r r' after after' := by
  simp only [deposit, bind_ok, pure_ok, same] at returned returned'
  obtain ⟨_, held, _, pooled, _, locked, _, poolLocked, _, totalLocked, rfl⟩ := returned
  obtain ⟨_, held', _, pooled', _, locked', _, poolLocked', _, totalLocked', rfl⟩ := returned'
  cases held.symm.trans held'
  cases locked.symm.trans locked'
  refine ⟨rfl, { collateral := collateral.amount, native := native.amount }, ?_, ?_⟩
  · exact ⟨⟨.add pooled, .refl _, .add poolLocked⟩, .refl _, .add totalLocked⟩
  · exact ⟨⟨.add pooled', .refl _, .add poolLocked'⟩, .refl _, .add totalLocked'⟩

theorem redeem_inStep {collateral native : Coin} (same : r'.position = r.position)
    (returned : r.redeem collateral native = .ok after)
    (returned' : r'.redeem collateral native = .ok after') : InStep r r' after after' := by
  simp only [redeem, bind_ok, pure_ok, same] at returned returned'
  obtain ⟨_, held, _, pooled, _, locked, _, poolLocked, _, totalLocked, rfl⟩ := returned
  obtain ⟨_, held', _, pooled', _, locked', _, poolLocked', _, totalLocked', rfl⟩ := returned'
  cases held.symm.trans held'
  cases locked.symm.trans locked'
  refine ⟨rfl, { collateral := -collateral.amount, native := -native.amount }, ?_, ?_⟩
  · exact ⟨⟨.withdraw pooled, .refl _, .withdraw poolLocked⟩, .refl _, .withdraw totalLocked⟩
  · exact ⟨⟨.withdraw pooled', .refl _, .withdraw poolLocked'⟩, .refl _, .withdraw totalLocked'⟩

theorem borrow_inStep {amount : Nat} (same : r'.position = r.position)
    (returned : r.borrow amount = .ok after) (returned' : r'.borrow amount = .ok after') :
    InStep r r' after after' := by
  simp only [borrow, bind_ok, pure_ok, same] at returned returned'
  obtain ⟨_, debt, _, pooled, _, total, rfl⟩ := returned
  obtain ⟨_, debt', _, pooled', _, total', rfl⟩ := returned'
  cases debt.symm.trans debt'
  refine ⟨rfl, { debt := amount }, ?_, ?_⟩
  · exact ⟨⟨.refl _, .add pooled, .refl _⟩, .add total, .refl _⟩
  · exact ⟨⟨.refl _, .add pooled', .refl _⟩, .add total', .refl _⟩

end PositionRecords

namespace Engine

/-- Two engines that agree on all that an operation on a position reads, but for the amounts in the
pool and in the total. -/
structure AgreeOn (e e' : Engine) (owner : Principal) (denom : Denom) : Prop where
  params : e'.store.params = e.store.params
  collateralParams : e'.store.collateralParams = e.store.collateralParams
  position : e'.store.positions.get? (owner, denom) = e.store.positions.get? (owner, denom)
  prices : e'.prices = e.prices
  accounts : e'.accounts = e.accounts
  height : e'.height = e.height

/-- In two engines, the records of a position are loaded and undergo the same change. -/
def InStep (e e' : Engine) (owner : Principal) (denom : Denom) (after after' : PositionRecords) :
    Prop :=
  ∃ mayOpen before before', e.position owner denom mayOpen = .ok before ∧
    e'.position owner denom mayOpen = .ok before' ∧
    PositionRecords.InStep before before' after after'

variable {e e' : Engine} {owner : Principal} {denom : Denom}

theorem InStep.position {after after' : PositionRecords}
    (step : e.InStep e' owner denom after after') : after'.position = after.position := by
  obtain ⟨_, _, _, -, -, step⟩ := step
  exact step.position

theorem InStep.trans {settled settled' after after' : PositionRecords}
    (earlier : e.InStep e' owner denom settled settled')
    (later : PositionRecords.InStep settled settled' after after') :
    e.InStep e' owner denom after after' := by
  obtain ⟨mayOpen, before, before', loaded, loaded', step⟩ := earlier
  exact ⟨mayOpen, before, before', loaded, loaded', step.trans later⟩

namespace AgreeOn

variable (agree : e.AgreeOn e' owner denom)
include agree

theorem collateralParams_eq (denom : Denom) :
    e'.collateralParams denom = e.collateralParams denom := by
  rw [Engine.collateralParams, agree.collateralParams, Engine.collateralParams]

theorem price_eq (denom : Denom) : e'.price denom = e.price denom := by
  rw [price, agree.prices, price]

theorem position_eq {mayOpen : Bool} {r r' : PositionRecords}
    (loaded : e.position owner denom mayOpen = .ok r)
    (loaded' : e'.position owner denom mayOpen = .ok r') : r'.position = r.position := by
  obtain ⟨-, -, stored⟩ := position_ok loaded
  obtain ⟨-, -, stored'⟩ := position_ok loaded'
  rw [agree.position, agree.height] at stored'
  obtain stored | ⟨missing, -, opened⟩ := stored <;>
    obtain stored' | ⟨missing', -, opened'⟩ := stored' <;> simp_all

theorem settledPosition_inStep {risk : CollateralParams} {mayOpen : Bool}
    {settled settled' : PositionRecords} (named : e.store.Named)
    (known : e.collateralParams denom = .ok risk)
    (loaded : e.settledPosition owner risk mayOpen = .ok settled)
    (loaded' : e'.settledPosition owner risk mayOpen = .ok settled') :
    e.InStep e' owner denom settled settled' := by
  obtain ⟨before, found, accrued⟩ := settledPosition_ok loaded
  obtain ⟨before', found', accrued'⟩ := settledPosition_ok loaded'
  rw [named.collateralParams denom risk (collateralParams_ok known).1] at found found'
  rw [agree.height, agree.params] at accrued'
  have same := agree.position_eq found found'
  exact ⟨mayOpen, before, before', found, found',
    PositionRecords.settle_inStep same accrued accrued'⟩

end AgreeOn

/-! ### Operations on the engine -/

theorem afterDeposit_inStep {collateralIn nativeIn : Coin} {after after' : PositionRecords}
    (named : e.store.Named) (agree : e.AgreeOn e' owner collateralIn.denom)
    (returned : e.afterDeposit owner collateralIn nativeIn = .ok after)
    (returned' : e'.afterDeposit owner collateralIn nativeIn = .ok after') :
    e.InStep e' owner collateralIn.denom after after' := by
  obtain ⟨-, risk, _, known, loaded, deposited, -⟩ := afterDeposit_ok returned
  obtain ⟨-, _, _, known', loaded', deposited', -⟩ := afterDeposit_ok returned'
  rw [agree.collateralParams_eq] at known'
  cases known.symm.trans known'
  have settled := agree.settledPosition_inStep named known loaded loaded'
  exact settled.trans (PositionRecords.deposit_inStep settled.position deposited deposited')

theorem afterRedeem_inStep {collateralOut nativeOut : Coin} {after after' : PositionRecords}
    (named : e.store.Named) (agree : e.AgreeOn e' owner collateralOut.denom)
    (returned : e.afterRedeem owner collateralOut nativeOut = .ok after)
    (returned' : e'.afterRedeem owner collateralOut nativeOut = .ok after') :
    e.InStep e' owner collateralOut.denom after after' := by
  obtain ⟨-, risk, _, _, _, known, loaded, redeemed, -⟩ := afterRedeem_ok returned
  obtain ⟨-, _, _, _, _, known', loaded', redeemed', -⟩ := afterRedeem_ok returned'
  rw [agree.collateralParams_eq] at known'
  cases known.symm.trans known'
  have settled := agree.settledPosition_inStep named known loaded loaded'
  exact settled.trans (PositionRecords.redeem_inStep settled.position redeemed redeemed')

theorem afterBorrow_inStep {mintOut fee fee' : Coin} {after after' : PositionRecords}
    (named : e.store.Named) (agree : e.AgreeOn e' owner denom)
    (returned : e.afterBorrow owner denom mintOut = .ok (fee, after))
    (returned' : e'.afterBorrow owner denom mintOut = .ok (fee', after')) :
    fee' = fee ∧ e.InStep e' owner denom after after' := by
  obtain ⟨-, risk, _, _, _, _, known, -, -, loaded, charged, borrowed, -⟩ := afterBorrow_ok returned
  obtain ⟨-, _, _, _, _, _, known', -, -, loaded', charged', borrowed', -⟩ :=
    afterBorrow_ok returned'
  rw [agree.collateralParams_eq] at known'
  cases known.symm.trans known'
  cases charged.symm.trans charged'
  have settled := agree.settledPosition_inStep named known loaded loaded'
  exact ⟨rfl, settled.trans (PositionRecords.borrow_inStep settled.position borrowed borrowed')⟩

theorem afterRepay_inStep {repayInMax : Coin} {parts parts' : Repayment}
    {after after' : PositionRecords} (named : e.store.Named) (agree : e.AgreeOn e' owner denom)
    (returned : e.afterRepay owner denom repayInMax = .ok (parts, after))
    (returned' : e'.afterRepay owner denom repayInMax = .ok (parts', after')) :
    parts' = parts ∧ e.InStep e' owner denom after after' := by
  simp only [afterRepay, bind_ok, pure_ok, Prod.mk.injEq, agree.collateralParams_eq]
    at returned returned'
  obtain ⟨_, -, risk, known, r, loaded, _, -, _, debt, _, interest, _, pooled, _, total, rfl,
    rfl⟩ := returned
  obtain ⟨_, -, _, known', r', loaded', _, -, _, debt', _, interest', _, pooled', _, total', rfl,
    rfl⟩ := returned'
  cases known.symm.trans known'
  have settled := agree.settledPosition_inStep named known loaded loaded'
  -- What is repaid depends on the position alone.
  have same := settled.position
  rw [same] at debt' interest' pooled' total' ⊢
  cases debt.symm.trans debt'
  cases interest.symm.trans interest'
  refine ⟨rfl, settled.trans
    ⟨rfl, { debt := -(min r.position.stableDebt.amount repayInMax.amount : Nat) }, ?_, ?_⟩⟩
  · exact ⟨⟨.refl _, .sub pooled, .refl _⟩, .sub total, .refl _⟩
  · exact ⟨⟨.refl _, .sub pooled', .refl _⟩, .sub total', .refl _⟩

theorem afterLiquidate_inStep {collateral repayInMax : Coin} {parts parts' : Liquidation}
    {after after' : PositionRecords} (named : e.store.Named)
    (agree : e.AgreeOn e' owner collateral.denom)
    (returned : e.afterLiquidate owner collateral repayInMax = .ok (parts, after))
    (returned' : e'.afterLiquidate owner collateral repayInMax = .ok (parts', after')) :
    parts' = parts ∧ e.InStep e' owner collateral.denom after after' := by
  simp only [afterLiquidate, bind_ok, pure_ok, Prod.mk.injEq, agree.collateralParams_eq,
    agree.price_eq, agree.params] at returned returned'
  obtain ⟨_, -, risk, known, price, priced, r, loaded, _, -, _, -, amount, counted, fee, charged, _,
    cut, _, commission, _, kept, rest, left, value, valued, repayIn, paid, _, -, _, interest, _,
    debt, _, pooledDebt, _, total, _, held, _, pooled, rfl, rfl⟩ := returned
  obtain ⟨_, -, _, known', _, priced', r', loaded', _, -, _, -, _, counted', _, charged', _,
    cut', _, commission', _, kept', _, left', _, valued', _, paid', _, -, _, interest', _, debt', _,
    pooledDebt', _, total', _, held', _, pooled', rfl, rfl⟩ := returned'
  cases known.symm.trans known'
  cases priced.symm.trans priced'
  -- What the collateral costs depends on its price and on the fees.
  cases counted.symm.trans counted'
  cases charged.symm.trans charged'
  cases cut.symm.trans cut'
  cases commission.symm.trans commission'
  cases kept.symm.trans kept'
  cases left.symm.trans left'
  cases valued.symm.trans valued'
  cases paid.symm.trans paid'
  have settled := agree.settledPosition_inStep named known loaded loaded'
  -- How it is split between debt and refund depends on the position.
  have same := settled.position
  rw [same] at interest' debt' pooledDebt' total' held' ⊢
  cases interest.symm.trans interest'
  cases debt.symm.trans debt'
  cases held.symm.trans held'
  refine ⟨rfl, settled.trans ⟨rfl,
    { collateral := -collateral.amount, debt := -(min r.position.stableDebt.amount repayIn : Nat) },
    ?_, ?_⟩⟩
  · exact ⟨⟨.withdraw pooled, .sub pooledDebt, .refl _⟩, .sub total, .refl _⟩
  · exact ⟨⟨.withdraw pooled', .sub pooledDebt', .refl _⟩, .sub total', .refl _⟩

/-! ### Plans -/

/-- In two engines that agree on the position that a request works on, its plans differ in the
records that they write at most, and these undergo the same change. -/
theorem plan_inStep {sender : Principal} {request : Request} {plan plan' : Plan}
    (named : e.store.Named) (works : request.position? sender = some (owner, denom))
    (agree : e.AgreeOn e' owner denom) (planned : e.plan sender request = .ok plan)
    (planned' : e'.plan sender request = .ok plan') :
    ∃ after after', plan.update = .position after ∧
      plan' = { plan with update := .position after' } ∧ e.InStep e' owner denom after after' := by
  cases request with
  | mint | burn | buyback | reback => cases works
  | deposit r =>
    cases works
    simp only [Engine.plan, planDeposit, bind_ok, pure_ok] at planned planned'
    obtain ⟨after, computed, rfl⟩ := planned
    obtain ⟨after', computed', rfl⟩ := planned'
    have step := afterDeposit_inStep named agree computed computed'
    exact ⟨after, after', rfl, by rw [agree.accounts], step⟩
  | redeem r =>
    cases works
    simp only [Engine.plan, planRedeem, bind_ok, pure_ok] at planned planned'
    obtain ⟨after, computed, rfl⟩ := planned
    obtain ⟨after', computed', rfl⟩ := planned'
    have step := afterRedeem_inStep named agree computed computed'
    exact ⟨after, after', rfl, by rw [agree.accounts], step⟩
  | borrow r =>
    cases works
    simp only [Engine.plan, planBorrow, bind_ok, pure_ok] at planned planned'
    obtain ⟨⟨fee, after⟩, computed, minted, summed, rfl⟩ := planned
    obtain ⟨⟨_, after'⟩, computed', _, summed', rfl⟩ := planned'
    obtain ⟨rfl, step⟩ := afterBorrow_inStep named agree computed computed'
    cases summed.symm.trans summed'
    exact ⟨after, after', rfl, by rw [agree.accounts], step⟩
  | repay r =>
    cases works
    simp only [Engine.plan, planRepay, bind_ok, pure_ok] at planned planned'
    obtain ⟨⟨parts, after⟩, computed, rfl⟩ := planned
    obtain ⟨⟨_, after'⟩, computed', rfl⟩ := planned'
    obtain ⟨rfl, step⟩ := afterRepay_inStep named agree computed computed'
    exact ⟨after, after', rfl, by rw [agree.accounts], step⟩
  | liquidate r =>
    cases works
    simp only [Engine.plan, planLiquidate, bind_ok, pure_ok] at planned planned'
    obtain ⟨⟨parts, after⟩, computed, rfl⟩ := planned
    obtain ⟨⟨_, after'⟩, computed', rfl⟩ := planned'
    obtain ⟨rfl, step⟩ := afterLiquidate_inStep named agree computed computed'
    exact ⟨after, after', rfl, by rw [agree.accounts], step⟩

end Engine

end Stablecoin
