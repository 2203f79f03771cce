import Mathlib.Tactic.Common
import Stablecoin.Proofs.Steps

/-!
# Ceilings

The risk parameters of an asset may cap what its pool holds and what is issued against it. A quote
checks the ceilings on the pool as it would be afterwards; the plan then adds to the pool as it is.
Both come to the same pool, every operation that adds to one is checked, and the others only take
away. So pools that are within their ceilings stay so until an asset is registered anew.

Debt also grows by interest, which nothing checks, so its ceiling holds only after each loan.
-/
namespace Stablecoin

/-! ### Pools within their ceilings -/

/-- A backing pool has no more backing, and no more is minted against it, than its asset allows. -/
structure BackingPool.Within (pool : BackingPool) (risk : BackingParams) : Prop where
  minted : ∀ ceiling, risk.maxStableMint = some ceiling → pool.stableMinted.amount ≤ ceiling
  backing : ∀ ceiling, risk.maxBacking = some ceiling → pool.backing.amount ≤ ceiling

/-- A collateral pool has no more collateral than its asset allows. -/
def CollateralPool.Within (pool : CollateralPool) (risk : CollateralParams) : Prop :=
  ∀ ceiling, risk.maxCollateral = some ceiling → pool.collateral.amount ≤ ceiling

/-- A collateral pool has no more debt, interest included, than its asset allows. -/
def CollateralPool.DebtWithin (pool : CollateralPool) (risk : CollateralParams) : Prop :=
  ∀ ceiling, risk.maxStableMint = some ceiling → pool.stableDebt.amount ≤ ceiling

/-- The pool of every registered asset is within the ceilings of the asset. -/
structure Store.WithinCeilings (s : Store) : Prop where
  backing : ∀ denom risk,
    s.backingParams.get? denom = some risk → (s.backingPool denom).Within risk
  collateral : ∀ denom risk,
    s.collateralParams.get? denom = some risk → (s.collateralPool denom).Within risk

instance (pool : BackingPool) (risk : BackingParams) : Decidable (pool.Within risk) :=
  decidable_of_iff
    ((∀ ceiling ∈ risk.maxStableMint, pool.stableMinted.amount ≤ ceiling) ∧
      ∀ ceiling ∈ risk.maxBacking, pool.backing.amount ≤ ceiling)
    ⟨fun ⟨minted, backing⟩ => ⟨minted, backing⟩, fun ⟨minted, backing⟩ => ⟨minted, backing⟩⟩

instance (pool : CollateralPool) (risk : CollateralParams) : Decidable (pool.Within risk) :=
  inferInstanceAs (Decidable (∀ ceiling ∈ risk.maxCollateral, pool.collateral.amount ≤ ceiling))

/-- It is enough to look at the assets that are listed. -/
theorem Store.withinCeilings_iff {s : Store} :
    s.WithinCeilings ↔
      (∀ entry ∈ s.backingParams.entries, (s.backingPool entry.1).Within entry.2) ∧
        ∀ entry ∈ s.collateralParams.entries, (s.collateralPool entry.1).Within entry.2 := by
  constructor
  · rintro ⟨backing, collateral⟩
    exact ⟨fun _ listed => backing _ _ (Table.mem_entries_iff.mp listed),
      fun _ listed => collateral _ _ (Table.mem_entries_iff.mp listed)⟩
  · rintro ⟨backing, collateral⟩
    exact ⟨fun _ _ known => backing _ (Table.mem_entries_iff.mpr known),
      fun _ _ known => collateral _ (Table.mem_entries_iff.mpr known)⟩

instance (s : Store) : Decidable s.WithinCeilings :=
  decidable_of_iff _ Store.withinCeilings_iff.symm

/-- Registering an asset sets its ceilings, and may set them below what its pool has. -/
def Action.registers : Action → Bool
  | registerBacking _ | registerCollateral _ => true
  | _ => false

/-! ### Checks -/

theorem BackingParams.requireMintCeiling_ok {risk : BackingParams} {minted : SignedCoin}
    {result : Unit} :
    risk.requireMintCeiling minted = .ok result ↔
      ∀ ceiling, risk.maxStableMint = some ceiling → minted.amount ≤ ceiling := by
  unfold requireMintCeiling
  split <;> simp_all [SignedCoin.exceeds]

theorem BackingParams.requireBackingCeiling_ok {risk : BackingParams} {backing : Coin}
    {result : Unit} :
    risk.requireBackingCeiling backing = .ok result ↔
      ∀ ceiling, risk.maxBacking = some ceiling → backing.amount ≤ ceiling := by
  unfold requireBackingCeiling
  split <;> simp_all

theorem CollateralParams.requireCollateralCeiling_ok {risk : CollateralParams} {collateral : Coin}
    {result : Unit} :
    risk.requireCollateralCeiling collateral = .ok result ↔
      ∀ ceiling, risk.maxCollateral = some ceiling → collateral.amount ≤ ceiling := by
  unfold requireCollateralCeiling
  split <;> simp_all

theorem CollateralParams.requireDebtCeiling_ok {risk : CollateralParams} {debt : Coin}
    {result : Unit} :
    risk.requireDebtCeiling debt = .ok result ↔
      ∀ ceiling, risk.maxStableMint = some ceiling → debt.amount ≤ ceiling := by
  unfold requireDebtCeiling
  split
  next ceiling capped =>
    -- Above the ceiling it is refused either way, as too much or as out of range.
    split
    next => simp_all
    next above => split <;> simp_all
  next => simp_all

theorem Engine.backingParams_ok {e : Engine} {denom : Denom} {risk : BackingParams}
    (found : e.backingParams denom = .ok risk) :
    e.store.backingParams.get? denom = some risk ∧ risk.enabled = true := by
  unfold backingParams at found
  split at found
  next => simp at found
  next stored =>
    simp only [bind_ok, require_ok, pure_ok] at found
    obtain ⟨_, enabled, rfl⟩ := found
    exact ⟨stored, enabled⟩

/-! ### Writing -/

/-- Taking from a pool keeps it within its ceilings. -/
theorem BackingPool.Within.of_le {pool after : BackingPool} {risk : BackingParams}
    (within : pool.Within risk) (minted : after.stableMinted.amount ≤ pool.stableMinted.amount)
    (backing : after.backing.amount ≤ pool.backing.amount) : after.Within risk where
  minted ceiling capped := Int.le_trans minted (within.minted ceiling capped)
  backing ceiling capped := Nat.le_trans backing (within.backing ceiling capped)

theorem CollateralPool.Within.of_le {pool after : CollateralPool} {risk : CollateralParams}
    (within : pool.Within risk) (collateral : after.collateral.amount ≤ pool.collateral.amount) :
    after.Within risk :=
  fun ceiling capped => Nat.le_trans collateral (within ceiling capped)

namespace Store.WithinCeilings

variable {s after : Store}

/-- Only parameters and pools are looked into. -/
theorem congr (within : s.WithinCeilings) (backingParams : after.backingParams = s.backingParams)
    (collateralParams : after.collateralParams = s.collateralParams)
    (backingPools : after.backingPools = s.backingPools)
    (collateralPools : after.collateralPools = s.collateralPools) : after.WithinCeilings where
  backing denom risk known := by
    rw [backingParams] at known
    rw [backingPool, backingPools]
    exact within.backing denom risk known
  collateral denom risk known := by
    rw [collateralParams] at known
    rw [collateralPool, collateralPools]
    exact within.collateral denom risk known

theorem setBackingPool {pool : BackingPool} (within : s.WithinCeilings)
    (allowed : ∀ risk, s.backingParams.get? pool.backing.denom = some risk → pool.Within risk) :
    (s.setBackingPool pool).WithinCeilings where
  backing denom risk known := by
    rw [backingPool, Store.setBackingPool, Table.get?_insert]
    split
    next same => exact allowed risk (same ▸ known)
    next => exact within.backing denom risk known
  collateral := within.collateral

theorem setCollateralPool {pool : CollateralPool} (within : s.WithinCeilings)
    (allowed : ∀ risk, s.collateralParams.get? pool.collateral.denom = some risk →
      pool.Within risk) :
    (s.setCollateralPool pool).WithinCeilings where
  backing := within.backing
  collateral denom risk known := by
    rw [collateralPool, Store.setCollateralPool, Table.get?_insert]
    split
    next same => exact allowed risk (same ▸ known)
    next => exact within.collateral denom risk known

end Store.WithinCeilings

namespace Engine

variable {e : Engine}

/-- The backing pool that is written back has to be within its ceilings if the loaded one was. -/
theorem update_backing_within {denom : Denom} {before after : BackingRecords}
    {change : BackingChange} (keyed : e.store.Keyed) (within : e.store.WithinCeilings)
    (loaded : e.backing denom = .ok before) (changed : before.Changed change after)
    (allowed : ∀ risk, e.store.backingParams.get? denom = some risk → before.pool.Within risk →
      after.pool.Within risk) :
    (e.store.update (.backing after)).WithinCeilings := by
  have stored := (backing_ok loaded).2
  have named : after.pool.backing.denom = denom :=
    changed.denom.trans (keyed.backingPool denom _ stored).1
  refine (within.setBackingPool fun risk known => ?_).congr rfl rfl rfl rfl
  rw [named] at known
  have held := within.backing denom risk known
  rw [Store.backingPool, stored] at held
  exact allowed risk known held

/-- A swap that adds neither backing nor stable units to the pool leaves it within its ceilings. -/
theorem update_backing_within_of_nonpos {denom : Denom} {before after : BackingRecords}
    {change : BackingChange} (keyed : e.store.Keyed) (within : e.store.WithinCeilings)
    (loaded : e.backing denom = .ok before) (changed : before.Changed change after)
    (stable : change.stable ≤ 0) (backing : change.backing ≤ 0) :
    (e.store.update (.backing after)).WithinCeilings := by
  have minted := changed.poolStable
  have held := changed.backing
  exact update_backing_within keyed within loaded changed fun _ _ before =>
    before.of_le (by omega) (by omega)

/-- The collateral pool that is written back has to be within its ceiling if the loaded one was. -/
theorem update_position_within {owner : Principal} {denom : Denom} {mayOpen : Bool}
    {before after : PositionRecords} {change : PositionChange} (keyed : e.store.Keyed)
    (within : e.store.WithinCeilings) (loaded : e.position owner denom mayOpen = .ok before)
    (changed : before.Changed change after)
    (allowed : ∀ risk, e.store.collateralParams.get? denom = some risk → before.pool.Within risk →
      after.pool.Within risk) :
    (e.store.update (.position after)).WithinCeilings := by
  have stored := (position_ok loaded).2.1
  have named : after.pool.collateral.denom = denom :=
    changed.poolDenom.trans (keyed.collateralPool denom _ stored).1
  refine (within.setCollateralPool fun risk known => ?_).congr rfl rfl rfl rfl
  rw [named] at known
  have held := within.collateral denom risk known
  rw [Store.collateralPool, stored] at held
  exact allowed risk known held

/-- An operation that adds no collateral to the pool leaves it within its ceiling. -/
theorem update_position_within_of_nonpos {owner : Principal} {denom : Denom} {mayOpen : Bool}
    {before after : PositionRecords} {change : PositionChange} (keyed : e.store.Keyed)
    (within : e.store.WithinCeilings) (loaded : e.position owner denom mayOpen = .ok before)
    (changed : before.Changed change after) (nonpos : change.collateral ≤ 0) :
    (e.store.update (.position after)).WithinCeilings := by
  have held := changed.poolCollateral
  exact update_position_within keyed within loaded changed fun _ _ before =>
    before.of_le (by omega)

/-! ### Plans -/

variable {sender : Principal} {plan : Plan}

theorem planMint_within {r : MintRequest} (keyed : e.store.Keyed) (within : e.store.WithinCeilings)
    (planned : e.planMint sender r = .ok plan) :
    (e.store.update plan.update).WithinCeilings := by
  obtain ⟨-, q, before, after, quoted, -, loaded, changed, -, written, -, -⟩ := planMint_ok planned
  obtain ⟨-, -, risk, _, _, _, _, _, backingIn, nativeIn, mintTotal, records, stableMinted, backing,
    mintFee, known, -, -, -, -, -, -, found, minted, mintCeiling, added, backingCeiling, -, covered,
    rfl⟩ := mintQuote_ok quoted
  rw [written]
  refine update_backing_within keyed within loaded changed fun other stored _ => ?_
  cases (backingParams_ok known).1.symm.trans stored
  -- The quote and the plan load the same pool.
  cases found.symm.trans loaded
  obtain ⟨-, rfl⟩ := SignedCoin.move_ok.mp minted
  obtain ⟨-, rfl⟩ := Coin.add_ok.mp added
  constructor
  · intro ceiling capped
    have bound := BackingParams.requireMintCeiling_ok.mp mintCeiling ceiling capped
    have moved := changed.poolStable
    dsimp only at bound moved
    omega
  · intro ceiling capped
    have bound := BackingParams.requireBackingCeiling_ok.mp backingCeiling ceiling capped
    have moved := changed.backing
    dsimp only at bound moved
    omega

theorem planReback_within {r : RebackRequest} (keyed : e.store.Keyed)
    (within : e.store.WithinCeilings) (planned : e.planReback sender r = .ok plan) :
    (e.store.update plan.update).WithinCeilings := by
  obtain ⟨-, q, before, after, quoted, -, loaded, changed, -, written, -, -⟩ :=
    planReback_ok planned
  obtain ⟨risk, _, _, records, backing, _, _, _, _, _, _, known, -, -, found, added, ceiling, -⟩ :=
    rebackQuote_ok quoted
  rw [written]
  refine update_backing_within keyed within loaded changed fun other stored held => ?_
  cases (backingParams_ok known).1.symm.trans stored
  cases found.symm.trans loaded
  obtain ⟨-, rfl⟩ := Coin.add_ok.mp added
  constructor
  · intro limit capped
    have bound := held.minted limit capped
    have moved := changed.poolStable
    dsimp only at moved
    omega
  · intro limit capped
    have bound := BackingParams.requireBackingCeiling_ok.mp ceiling limit capped
    have moved := changed.backing
    dsimp only at bound moved
    omega

theorem planDeposit_within {r : DepositRequest} (keyed : e.store.Keyed)
    (within : e.store.WithinCeilings) (planned : e.planDeposit sender r = .ok plan) :
    (e.store.update plan.update).WithinCeilings := by
  obtain ⟨after, computed, -, written, -, -⟩ := planDeposit_ok planned
  obtain ⟨-, risk, settled, known, loaded, deposited, ceiling⟩ := afterDeposit_ok computed
  obtain ⟨before, found, interest, accrued⟩ := settledPosition_changed keyed.named known loaded
  have changed := accrued.trans (PositionRecords.deposit_changed deposited)
  rw [written]
  refine update_position_within keyed within found changed fun other stored _ => ?_
  cases (collateralParams_ok known).1.symm.trans stored
  exact CollateralParams.requireCollateralCeiling_ok.mp ceiling

/-- What adds to a pool is checked, and the rest only takes away. -/
theorem plan_within {request : Request} (keyed : e.store.Keyed) (within : e.store.WithinCeilings)
    (planned : e.plan sender request = .ok plan) :
    (e.store.update plan.update).WithinCeilings := by
  cases request with
  | mint r => exact planMint_within keyed within planned
  | burn r =>
    obtain ⟨-, q, _, _, -, -, -, covered, loaded, changed, -, written, -, -⟩ := planBurn_ok planned
    rw [written]
    exact update_backing_within_of_nonpos keyed within loaded changed (by dsimp only; omega)
      (by dsimp only; omega)
  | buyback r =>
    obtain ⟨q, _, _, -, -, loaded, changed, -, written, -, -⟩ := planBuyback_ok planned
    rw [written]
    exact update_backing_within_of_nonpos keyed within loaded changed (by simp)
      (by dsimp only; omega)
  | reback r => exact planReback_within keyed within planned
  | deposit r => exact planDeposit_within keyed within planned
  | redeem r =>
    obtain ⟨after, computed, -, written, -, -⟩ := planRedeem_ok planned
    obtain ⟨-, risk, settled, _, _, known, loaded, redeemed, -⟩ := afterRedeem_ok computed
    obtain ⟨before, found, interest, accrued⟩ := settledPosition_changed keyed.named known loaded
    have changed := accrued.trans (PositionRecords.redeem_changed redeemed)
    rw [written]
    exact update_position_within_of_nonpos keyed within found changed (by simp)
  | borrow r =>
    obtain ⟨_, after, computed, -, written, -, -⟩ := planBorrow_ok planned
    obtain ⟨-, risk, _, _, settled, _, known, -, -, loaded, -, borrowed, -⟩ :=
      afterBorrow_ok computed
    obtain ⟨before, found, interest, accrued⟩ := settledPosition_changed keyed.named known loaded
    have changed := accrued.trans (PositionRecords.borrow_changed borrowed)
    rw [written]
    exact update_position_within_of_nonpos keyed within found changed (by simp)
  | repay r =>
    obtain ⟨_, after, computed, -, written, -, -⟩ := planRepay_ok planned
    obtain ⟨-, risk, settled, _, _, known, loaded, -, -, -, -, repaid⟩ := afterRepay_ok computed
    obtain ⟨before, found, interest, accrued⟩ := settledPosition_changed keyed.named known loaded
    have changed := accrued.trans repaid
    rw [written]
    exact update_position_within_of_nonpos keyed within found changed (by simp)
  | liquidate r =>
    obtain ⟨_, after, computed, -, written, -, -⟩ := planLiquidate_ok planned
    obtain ⟨-, risk, _, settled, _, _, _, _, _, _, _, _, known, -, loaded, -, -, -, -, -, -, -, -,
      -, -, -, -, liquidated⟩ := afterLiquidate_ok computed
    obtain ⟨before, found, interest, accrued⟩ := settledPosition_changed keyed.named known loaded
    have changed := accrued.trans liquidated
    rw [written]
    exact update_position_within_of_nonpos keyed within found changed (by simp)

/-! ### Runs -/

theorem setParams_within (within : e.store.WithinCeilings) (params : Params) :
    (e.setParams params).engine.store.WithinCeilings := by
  unfold setParams
  split
  · exact within
  · exact within.congr rfl rfl rfl rfl

theorem endBlock_within (within : e.store.WithinCeilings) (adjust : RatioInput → Option Decimal) :
    (e.endBlock adjust).engine.store.WithinCeilings := by
  unfold endBlock
  dsimp only
  split
  · exact within
  · split
    · exact within
    · exact within.congr rfl rfl rfl rfl

theorem act_within (sound : e.Sound) (within : e.store.WithinCeilings) {action : Action}
    (unregistered : action.registers = false) : (e.act action).store.WithinCeilings := by
  cases action with
  | registerBacking | registerCollateral => cases unregistered
  | setParams params => exact setParams_within within params
  | endBlock adjust => exact endBlock_within within adjust
  | beginBlock | setRate | removeRate | fund => exact within
  | transact sender request =>
    change (e.transact sender request).engine.store.WithinCeilings
    cases returned : (e.transact sender request).result with
    | error failure => rwa [transact_refused returned]
    | ok response =>
      obtain ⟨plan, ledger, planned, -, -, carried⟩ := transact_ok returned
      rw [carried]
      exact plan_within sound.keyed within planned

theorem run_within (sound : e.Sound) (within : e.store.WithinCeilings) {actions : List Action}
    (unregistered : ∀ action ∈ actions, action.registers = false) :
    (e.run actions).store.WithinCeilings := by
  induction actions generalizing e with
  | nil => exact within
  | cons action rest ih =>
    have first := act_within sound within (unregistered action List.mem_cons_self)
    exact ih (act_sound sound action) first fun other member =>
      unregistered other (List.mem_cons_of_mem _ member)

/-- Right after a loan, the debt of the pool is within its ceiling, interest included. -/
theorem transact_borrow_debtWithin (keyed : e.store.Keyed) {sender : Principal} {r : BorrowRequest}
    {response : Response} (returned : (e.transact sender (.borrow r)).result = .ok response)
    {risk : CollateralParams} (stored : e.store.collateralParams.get? r.denom = some risk) :
    ((e.transact sender (.borrow r)).engine.store.collateralPool r.denom).DebtWithin risk := by
  obtain ⟨plan, ledger, planned, -, -, carried⟩ := transact_ok returned
  obtain ⟨_, after, computed, -, written, -, -⟩ := planBorrow_ok planned
  obtain ⟨-, _, _, _, settled, _, known, -, -, loaded, -, borrowed, ceiling, -⟩ :=
    afterBorrow_ok computed
  obtain ⟨before, found, interest, accrued⟩ := settledPosition_changed keyed.named known loaded
  have changed := accrued.trans (PositionRecords.borrow_changed borrowed)
  have named : after.pool.collateral.denom = r.denom :=
    changed.poolDenom.trans (keyed.collateralPool r.denom _ (position_ok found).2.1).1
  cases (collateralParams_ok known).1.symm.trans stored
  have pool :
      (e.transact sender (.borrow r)).engine.store.collateralPool r.denom = after.pool := by
    rw [carried, written, ← named]
    simp [record, Store.update, Store.collateralPool, Store.setPosition, Store.setCollateralPool]
  rw [pool]
  exact CollateralParams.requireDebtCeiling_ok.mp ceiling

/-- From any state of any run in which all pools are within their ceilings, they stay so as long as
no asset is registered; and right after every loan, the debt of its pool is within its ceiling
too. -/
theorem run_withinCeilings (params : Params) (accounts : ModuleAccounts) (earlier : List Action)
    {later : List Action} (within : ((fresh params accounts).run earlier).store.WithinCeilings)
    (unregistered : ∀ action ∈ later, action.registers = false) :
    let e := ((fresh params accounts).run earlier).run later
    e.store.WithinCeilings ∧ ∀ sender r response,
      (e.transact sender (.borrow r)).result = .ok response →
        let after := (e.transact sender (.borrow r)).engine.store
        ∀ risk, after.collateralParams.get? r.denom = some risk →
          (after.collateralPool r.denom).DebtWithin risk := by
  intro e
  have start : ((fresh params accounts).run earlier).Sound :=
    run_sound (fresh_sound params accounts) earlier
  have sound : e.Sound := run_sound start later
  refine ⟨run_within start within unregistered, ?_⟩
  intro sender r response returned after risk stored
  refine transact_borrow_debtWithin sound.keyed returned ?_
  -- A loan leaves the parameters alone.
  obtain ⟨plan, ledger, planned, -, -, carried⟩ := transact_ok returned
  obtain ⟨_, records, -, -, written, -, -⟩ := planBorrow_ok planned
  have kept : after.collateralParams = e.store.collateralParams := by
    change (e.transact sender (.borrow r)).engine.store.collateralParams = _
    rw [carried, written]
    rfl
  rwa [kept] at stored

/-- A desk with a ceiling on everything, and a user who uses it up to the ceilings. -/
def cappedDesk (user : Principal) : List Action :=
  [.registerBacking
      { denom := "usdc"
        enabled := true
        maxBacking := some 1000
        maxStableMint := some 1000
        mintFee := none
        burnFee := none
        buybackFee := none
        rebackFee := none },
    .registerCollateral
      { denom := "ether"
        enabled := true
        maxCollateral := some 1000
        maxStableMint := some 500
        liquidationThreshold := percent 80
        loanToValue := percent 70
        basicLoanToValue := percent 60
        catalyticRatio := percent 5
        liquidationFee := percent 10
        mintFee := none
        interestRate := percent 10 },
    .setRate "usdc" 1, .setRate "ether" 1, .setRate nativeDenom 1,
    .setRate stableDenom (percent 105), .fund (.user user) ⟨"usdc", 2000⟩,
    .fund (.user user) ⟨"ether", 2000⟩]

/-- Both pools are filled to their ceilings, a further mint is refused, and a loan takes the debt to
its ceiling. -/
theorem run_withinCeilings_cappedDesk :
    let user : Principal := ⟨[1], by decide⟩
    let start := (fresh .initial .initial).run (cappedDesk user)
    let mint : Request := .mint ⟨none, ⟨stableDenom, 0⟩, ⟨"usdc", 1000⟩, ⟨nativeDenom, 0⟩, true⟩
    let deposit : Request := .deposit ⟨none, ⟨"ether", 1000⟩, ⟨nativeDenom, 0⟩⟩
    let loan : BorrowRequest := ⟨none, "ether", ⟨stableDenom, 500⟩⟩
    let later := [.transact user mint, .transact user mint, .transact user deposit]
    let e := start.run later
    let after := (e.transact user (.borrow loan)).engine.store
    start.store.WithinCeilings ∧ (∀ action ∈ later, action.registers = false) ∧
      (e.store.backingPool "usdc").backing.amount = 1000 ∧
      (e.store.collateralPool "ether").collateral.amount = 1000 ∧
      (e.transact user (.borrow loan)).result = .ok (.borrow ⟨⟨stableDenom, 0⟩⟩) ∧
      e.store.WithinCeilings ∧ ∃ risk, after.collateralParams.get? "ether" = some risk ∧
        (after.collateralPool "ether").DebtWithin risk := by
  intro user start mint deposit loan later e after
  have within : start.store.WithinCeilings := by decide +kernel
  have unregistered : ∀ action ∈ later, action.registers = false := by
    simp [later, Action.registers]
  have backing : (e.store.backingPool "usdc").backing.amount = 1000 := by decide +kernel
  have collateral : (e.store.collateralPool "ether").collateral.amount = 1000 := by decide +kernel
  have returned : (e.transact user (.borrow loan)).result = .ok (.borrow ⟨⟨stableDenom, 0⟩⟩) := by
    decide +kernel
  have registered : (after.collateralParams.get? "ether").isSome = true := by decide +kernel
  obtain ⟨risk, stored⟩ := Option.isSome_iff_exists.mp registered
  refine ⟨within, unregistered, backing, collateral, returned, ?_⟩
  obtain ⟨kept, lent⟩ := run_withinCeilings .initial .initial (cappedDesk user) within unregistered
  simp only [after, e, start] at stored ⊢
  exact ⟨kept, risk, stored, lent user loan _ returned risk stored⟩

end Engine

end Stablecoin
