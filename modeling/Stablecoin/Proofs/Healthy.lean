import Stablecoin.Proofs.Custody
import Stablecoin.Proofs.Decimal.Value
import Stablecoin.Proofs.DebtBooks
import Stablecoin.Proofs.LedgerBounds
import Stablecoin.Proofs.RecordRange

/-!
# Healthy engines

What holds of an engine after every run from valid parameters: all parameters have passed
validation, registered collateral has its records, amounts are in range, the debt books agree, the
ledger is valid, and the module account holds what the books say.
-/
namespace Stablecoin

namespace Store

/-- Parameters have passed validation, registered collateral has its records, and the amounts in
them are in range. -/
structure WellFormed (s : Store) : Prop where
  params : s.params.validate = .ok ()
  backingParams : ∀ denom params,
    s.backingParams.get? denom = some params → params.validate = .ok ()
  collateralParams : ∀ denom params,
    s.collateralParams.get? denom = some params → params.validate = .ok ()
  registered : ∀ denom params, s.collateralParams.get? denom = some params →
    ∃ total pool, s.collateralTotal = some total ∧ s.collateralPools.get? denom = some pool
  inRange : s.InRange

theorem wellFormed_new {params : Params} (valid : params.validate = .ok ()) :
    (new params).WellFormed where
  params := valid
  backingParams _ _ found := by cases found
  collateralParams _ _ found := by cases found
  registered _ _ found := by cases found
  inRange := by constructor <;> intros <;> contradiction

/-! ### Writing -/

variable {s : Store}

/-- Only the collateral tables are looked into. -/
theorem InRange.congr {after : Store} (inRange : s.InRange)
    (total : after.collateralTotal = s.collateralTotal)
    (pools : after.collateralPools = s.collateralPools)
    (positions : after.positions = s.positions) : after.InRange where
  total := total ▸ inRange.total
  pool := pools ▸ inRange.pool
  position := positions ▸ inRange.position

theorem InRange.setCollateralPool {pool : CollateralPool} {denom : Denom} (inRange : s.InRange)
    (written : pool.InRange denom) : (s.setCollateralPool pool).InRange where
  total := inRange.total
  pool other found := by
    simp only [Store.setCollateralPool, Table.get?_insert]
    split
    next same =>
      rintro ⟨⟩
      rwa [same, written.collateral.denom]
    next => exact inRange.pool other found
  position := inRange.position

theorem InRange.setPosition {position : Position} {denom : Denom} (inRange : s.InRange)
    (written : position.InRange denom) : (s.setPosition position).InRange where
  total := inRange.total
  pool := inRange.pool
  position owner other found := by
    simp only [Store.setPosition, Table.get?_insert]
    split
    next same =>
      rintro ⟨⟩
      rwa [(Prod.mk.inj same).2, written.collateral.denom]
    next => exact inRange.position owner other found

theorem InRange.setCollateralTotal {total : CollateralTotal} (inRange : s.InRange)
    (written : total.InRange) : { s with collateralTotal := some total }.InRange where
  total _ := by
    rintro ⟨⟩
    exact written
  pool := inRange.pool
  position := inRange.position

theorem WellFormed.setCollateralPool {pool : CollateralPool} {denom : Denom}
    (wellFormed : s.WellFormed) (written : pool.InRange denom) :
    (s.setCollateralPool pool).WellFormed :=
  { wellFormed with
    registered := by
      intro other params known
      obtain ⟨total, before, totalled, found⟩ := wellFormed.registered other params known
      obtain ⟨after, kept⟩ := pool_setCollateralPool pool ⟨before, found⟩
      exact ⟨total, after, totalled, kept⟩
    inRange := wellFormed.inRange.setCollateralPool written }

theorem WellFormed.setCollateralTotal {total : CollateralTotal} (wellFormed : s.WellFormed)
    (written : total.InRange) : { s with collateralTotal := some total }.WellFormed :=
  { wellFormed with
    registered := by
      intro denom params known
      obtain ⟨-, pool, -, found⟩ := wellFormed.registered denom params known
      exact ⟨total, pool, rfl, found⟩
    inRange := wellFormed.inRange.setCollateralTotal written }

theorem WellFormed.setPosition {position : Position} {denom : Denom} (wellFormed : s.WellFormed)
    (written : position.InRange denom) : (s.setPosition position).WellFormed :=
  { wellFormed with inRange := wellFormed.inRange.setPosition written }

/-- Parameters can be registered once the asset has its records. -/
theorem WellFormed.setCollateralParams {params : CollateralParams} {total : CollateralTotal}
    {pool : CollateralPool} (wellFormed : s.WellFormed) (valid : params.validate = .ok ())
    (totalled : s.collateralTotal = some total)
    (opened : s.collateralPools.get? params.denom = some pool) :
    (s.setCollateralParams params).WellFormed :=
  { wellFormed with
    collateralParams := by
      intro denom found
      simp only [Store.setCollateralParams, Table.get?_insert]
      split
      next =>
        rintro ⟨⟩
        exact valid
      next => exact wellFormed.collateralParams denom found
    registered := by
      intro denom found
      simp only [Store.setCollateralParams, Table.get?_insert]
      split
      next same =>
        intro _
        exact ⟨total, pool, totalled, same ▸ opened⟩
      next => exact wellFormed.registered denom found
    inRange := wellFormed.inRange.congr rfl rfl rfl }

theorem WellFormed.setBackingParams {params : BackingParams} (wellFormed : s.WellFormed)
    (valid : params.validate = .ok ()) : (s.setBackingParams params).WellFormed :=
  { wellFormed with
    backingParams := by
      intro denom found
      simp only [Store.setBackingParams, Table.get?_insert]
      split
      next =>
        rintro ⟨⟩
        exact valid
      next => exact wellFormed.backingParams denom found
    inRange := wellFormed.inRange.congr rfl rfl rfl }

/-- Backing records are not looked into. -/
theorem WellFormed.setBacking (wellFormed : s.WellFormed) (backingPools : Table Denom BackingPool)
    (backingTotal : Option BackingTotal) :
    { s with backingPools, backingTotal }.WellFormed :=
  { wellFormed with
    inRange := wellFormed.inRange.congr rfl rfl rfl }

theorem WellFormed.setParams {params : Params} (wellFormed : s.WellFormed)
    (valid : params.validate = .ok ()) (ratioAdjustedAt : Height) :
    { s with params, ratioAdjustedAt }.WellFormed :=
  { wellFormed with
    params := valid
    inRange := wellFormed.inRange.congr rfl rfl rfl }

end Store

/-- Years have blocks. -/
theorem Params.validate_blocksPerYear {params : Params} (valid : params.validate = .ok ()) :
    params.blocksPerYear ≠ 0 := by
  simp only [validate, bind_ok, require_ok] at valid
  obtain ⟨_, -, _, -, _, -, _, -, _, -, nonzero⟩ := valid
  exact nonzero

namespace Engine

variable {e : Engine}

/-! ### Actions -/

theorem registerBacking_wellFormed (wellFormed : e.store.WellFormed) (params : BackingParams) :
    (e.registerBacking params).engine.store.WellFormed := by
  unfold registerBacking
  split
  next => exact wellFormed
  next valid =>
    cases e.store.backingPools.get? params.denom with
    | some pool => exact (wellFormed.setBacking _ _).setBackingParams valid
    | none => exact (wellFormed.setBacking _ _).setBackingParams valid

theorem registerCollateral_wellFormed (wellFormed : e.store.WellFormed)
    (params : CollateralParams) :
    (e.registerCollateral params).engine.store.WellFormed := by
  have total : (e.store.collateralTotal.getD .empty).InRange := by
    cases found : e.store.collateralTotal with
    | none => exact CollateralTotal.empty_inRange
    | some total => exact wellFormed.inRange.total total found
  unfold registerCollateral
  split
  next => exact wellFormed
  next valid =>
    cases found : e.store.collateralPools.get? params.denom with
    | some pool =>
      exact (wellFormed.setCollateralTotal total).setCollateralParams valid rfl found
    | none =>
      -- The asset gets an empty pool before it gets its parameters.
      have opened := wellFormed.setCollateralPool (CollateralPool.empty_inRange params.denom)
      exact (opened.setCollateralTotal total).setCollateralParams valid rfl
        (Table.get?_insert_self _ _ _)

theorem setParams_wellFormed (wellFormed : e.store.WellFormed) (params : Params) :
    (e.setParams params).engine.store.WellFormed := by
  unfold setParams
  split
  next => exact wellFormed
  next valid => exact wellFormed.setParams valid e.store.ratioAdjustedAt

theorem endBlock_wellFormed (wellFormed : e.store.WellFormed)
    (adjust : RatioInput → Option Decimal) : (e.endBlock adjust).engine.store.WellFormed := by
  unfold endBlock
  dsimp only
  split
  next => exact wellFormed
  next ratio =>
    split
    next => exact wellFormed
    next nonneg =>
      -- The adjusted ratio is not negative, and nothing else changes.
      refine wellFormed.setParams ?_ e.height
      have valid := wellFormed.params
      simp only [Params.validate, bind_ok, requireNonNegative, require_ok] at valid ⊢
      obtain ⟨_, -, rest⟩ := valid
      exact ⟨(), Decimal.le_iff_toRat.mpr (not_lt.mp (Decimal.lt_iff_toRat.not.mp nonneg)), rest⟩

theorem update_wellFormed {sender : Principal} {request : Request} {plan : Plan}
    (wellFormed : e.store.WellFormed) (planned : e.plan sender request = .ok plan) :
    (e.store.update plan.update).WellFormed := by
  cases written : plan.update with
  | backing records => exact wellFormed.setBacking _ _
  | position records =>
    obtain ⟨denom, total, pool, position⟩ := plan_inRange wellFormed.inRange planned written
    exact ((wellFormed.setCollateralTotal total).setCollateralPool pool).setPosition position

theorem act_wellFormed (wellFormed : e.store.WellFormed) (action : Action) :
    (e.act action).store.WellFormed := by
  cases action with
  | setParams params => exact setParams_wellFormed wellFormed params
  | registerBacking params => exact registerBacking_wellFormed wellFormed params
  | registerCollateral params => exact registerCollateral_wellFormed wellFormed params
  | endBlock adjust => exact endBlock_wellFormed wellFormed adjust
  | beginBlock | setRate | removeRate | fund => exact wellFormed
  | transact sender request =>
    change (e.transact sender request).engine.store.WellFormed
    cases returned : (e.transact sender request).result with
    | error failure => rwa [transact_refused returned]
    | ok response =>
      obtain ⟨plan, ledger, planned, -, -, carried⟩ := transact_ok returned
      rw [carried]
      exact update_wellFormed wellFormed planned

theorem Undisturbed.ledgerValid {after : Engine} (undisturbed : e.Undisturbed after)
    (valid : e.ledger.Valid) : after.ledger.Valid := by
  rwa [undisturbed.ledger]

theorem act_ledgerValid (valid : e.ledger.Valid) (action : Action) :
    (e.act action).ledger.Valid := by
  cases action with
  | setParams params => exact (setParams_undisturbed params).ledgerValid valid
  | registerBacking params => exact (registerBacking_undisturbed params).ledgerValid valid
  | registerCollateral params => exact (registerCollateral_undisturbed params).ledgerValid valid
  | endBlock adjust => exact (endBlock_undisturbed adjust).ledgerValid valid
  | beginBlock | setRate | removeRate => exact valid
  | fund account coin => exact valid.fund account coin
  | transact sender request =>
    change (e.transact sender request).engine.ledger.Valid
    cases returned : (e.transact sender request).result with
    | error failure => rwa [transact_refused returned]
    | ok response =>
      obtain ⟨plan, ledger, -, applied, -, carried⟩ := transact_ok returned
      rw [carried]
      exact valid.apply applied

/-! ### Health -/

/-- Records, debt books, ledger and custody are as they should be. -/
structure Healthy (e : Engine) : Prop where
  store : e.store.WellFormed
  books : e.store.BooksAgree
  ledger : e.ledger.Valid
  custody : ∀ denom, 0 ≤ e.unbooked denom

theorem act_healthy (sound : e.Sound) (healthy : e.Healthy) (action : Action) :
    (e.act action).Healthy where
  store := act_wellFormed healthy.store action
  books := act_booksAgree sound healthy.books action
  ledger := act_ledgerValid healthy.ledger action
  custody denom := by
    obtain ⟨fees, nonneg, -, held⟩ := act_unbooked sound action denom
    have before := healthy.custody denom
    have credited := e.creditedBy_nonneg action denom
    omega

theorem fresh_healthy {params : Params} (valid : params.validate = .ok ())
    (accounts : ModuleAccounts) : (fresh params accounts).Healthy where
  store := Store.wellFormed_new valid
  books := Store.booksAgree_new params
  ledger := Ledger.empty_valid
  custody denom := (fresh_unbooked params accounts denom).ge

/-- An engine that starts with valid parameters is healthy after every run. -/
theorem run_healthy {params : Params} (valid : params.validate = .ok ())
    (accounts : ModuleAccounts) (actions : List Action) :
    ((fresh params accounts).run actions).Healthy :=
  run_keeps Healthy (fun _ action sound healthy => act_healthy sound healthy action)
    (fresh_sound params accounts) (fresh_healthy valid accounts) actions

end Engine

end Stablecoin
