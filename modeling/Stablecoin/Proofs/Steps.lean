import Stablecoin.Engine.Run
import Stablecoin.Proofs.Books

/-!
# What one action does

An engine is sound if its records stand under their own names and its ledger is conserved. An action
of a sound engine leaves books and ledger alone, issues a coin from outside, or carries out a plan;
in each case the engine is sound again, and so along every run.
-/
namespace Stablecoin

/-! ### Names -/

theorem BackingParams.validate_denom {params : BackingParams} (valid : params.validate = .ok ()) :
    params.denom ≠ stableDenom ∧ params.denom ≠ nativeDenom := by
  simp only [validate, bind_ok, requireRiskDenom, require_ok] at valid
  obtain ⟨_, ⟨_, named⟩, _⟩ := valid
  exact named

theorem CollateralParams.validate_denom {params : CollateralParams}
    (valid : params.validate = .ok ()) :
    params.denom ≠ stableDenom ∧ params.denom ≠ nativeDenom := by
  simp only [validate, bind_ok, requireRiskDenom, require_ok] at valid
  obtain ⟨_, ⟨_, named⟩, _⟩ := valid
  exact named

namespace Store

theorem keyed_new (params : Params) : (new params).Keyed := by
  constructor <;> intros <;> contradiction

theorem Keyed.setCollateralPool {s : Store} {pool : CollateralPool} (keyed : s.Keyed)
    (stable : pool.collateral.denom ≠ stableDenom) (native : pool.collateral.denom ≠ nativeDenom) :
    (s.setCollateralPool pool).Keyed where
  collateralParams := keyed.collateralParams
  backingPool := keyed.backingPool
  collateralPool denom found := by
    simp only [Store.setCollateralPool, Table.get?_insert]
    split
    next same =>
      rintro ⟨⟩
      exact ⟨same.symm, same ▸ stable, same ▸ native⟩
    next => exact keyed.collateralPool denom found
  position := keyed.position

theorem Keyed.setBackingPool {s : Store} {pool : BackingPool} (keyed : s.Keyed)
    (stable : pool.backing.denom ≠ stableDenom) (native : pool.backing.denom ≠ nativeDenom) :
    (s.setBackingPool pool).Keyed where
  collateralParams := keyed.collateralParams
  backingPool denom found := by
    simp only [Store.setBackingPool, Table.get?_insert]
    split
    next same =>
      rintro ⟨⟩
      exact ⟨same.symm, same ▸ stable, same ▸ native⟩
    next => exact keyed.backingPool denom found
  collateralPool := keyed.collateralPool
  position := keyed.position

theorem Keyed.setCollateralParams {s : Store} (keyed : s.Keyed) (params : CollateralParams) :
    (s.setCollateralParams params).Keyed where
  collateralParams denom found := by
    simp only [Store.setCollateralParams, Table.get?_insert]
    split
    next same =>
      rintro ⟨⟩
      exact same.symm
    next => exact keyed.collateralParams denom found
  backingPool := keyed.backingPool
  collateralPool := keyed.collateralPool
  position := keyed.position

theorem Keyed.setPosition {s : Store} (keyed : s.Keyed) (position : Position) :
    (s.setPosition position).Keyed where
  collateralParams := keyed.collateralParams
  backingPool := keyed.backingPool
  collateralPool := keyed.collateralPool
  position owner denom found := by
    simp only [Store.setPosition, Table.get?_insert]
    split
    next same =>
      -- The entry found is the one just written, under its own owner and denomination.
      rintro ⟨⟩
      cases same
      exact ⟨rfl, rfl⟩
    next => exact keyed.position owner denom found

/-- Only tables are looked into. -/
theorem Keyed.congr {s after : Store} (keyed : s.Keyed)
    (collateralParams : after.collateralParams = s.collateralParams)
    (backingPools : after.backingPools = s.backingPools)
    (collateralPools : after.collateralPools = s.collateralPools)
    (positions : after.positions = s.positions) : after.Keyed where
  collateralParams := collateralParams ▸ keyed.collateralParams
  backingPool := backingPools ▸ keyed.backingPool
  collateralPool := collateralPools ▸ keyed.collateralPool
  position := positions ▸ keyed.position

end Store

namespace Engine

variable {e : Engine}

/-! ### Governance -/

/-- The books, the coins and the accounts are left as they were. -/
structure Undisturbed (e after : Engine) : Prop where
  books : e.store.SameBooks after.store
  keyed : e.store.Keyed → after.store.Keyed
  ledger : after.ledger = e.ledger
  accounts : after.accounts = e.accounts

/-- Prices, heights, events and parameters of the engine are no part of the books. -/
theorem Undisturbed.of_tables {after : Engine}
    (backingPools : after.store.backingPools = e.store.backingPools)
    (collateralParams : after.store.collateralParams = e.store.collateralParams)
    (collateralPools : after.store.collateralPools = e.store.collateralPools)
    (positions : after.store.positions = e.store.positions)
    (backingTotal : after.store.backingTotal = e.store.backingTotal)
    (collateralTotal : after.store.collateralTotal = e.store.collateralTotal)
    (ledger : after.ledger = e.ledger) (accounts : after.accounts = e.accounts) :
    e.Undisturbed after where
  books :=
    { backingPool := fun _ => by rw [Store.backingPool, Store.backingPool, backingPools]
      collateralPool := fun _ => by
        rw [Store.collateralPool, Store.collateralPool, collateralPools]
      allBacking := by rw [Store.allBacking, Store.allBacking, backingTotal]
      allCollateral := by rw [Store.allCollateral, Store.allCollateral, collateralTotal]
      collateralSum := fun _ _ => by rw [collateralPools]
      positions }
  keyed keyed := keyed.congr collateralParams backingPools collateralPools positions
  ledger := ledger
  accounts := accounts

theorem Undisturbed.refl (e : Engine) : e.Undisturbed e :=
  .of_tables rfl rfl rfl rfl rfl rfl rfl rfl

theorem setParams_undisturbed (params : Params) :
    e.Undisturbed (e.setParams params).engine := by
  unfold setParams
  split
  · exact .refl e
  · exact .of_tables rfl rfl rfl rfl rfl rfl rfl rfl

theorem endBlock_undisturbed (adjust : RatioInput → Option Decimal) :
    e.Undisturbed (e.endBlock adjust).engine := by
  unfold endBlock
  dsimp only
  split
  · exact .refl e
  · split
    · exact .refl e
    · exact .of_tables rfl rfl rfl rfl rfl rfl rfl rfl

theorem registerBacking_undisturbed (params : BackingParams) :
    e.Undisturbed (e.registerBacking params).engine where
  books := registerBacking_books params
  keyed := by
    intro keyed
    unfold registerBacking
    split
    next => exact keyed
    next valid =>
      obtain ⟨stable, native⟩ := BackingParams.validate_denom valid
      cases e.store.backingPools.get? params.denom with
      | some pool => exact keyed.congr rfl rfl rfl rfl
      | none => exact (keyed.setBackingPool stable native).congr rfl rfl rfl rfl
  ledger := by
    unfold registerBacking
    split <;> rfl
  accounts := by
    unfold registerBacking
    split <;> rfl

theorem registerCollateral_undisturbed (params : CollateralParams) :
    e.Undisturbed (e.registerCollateral params).engine where
  books := registerCollateral_books params
  keyed := by
    intro keyed
    unfold registerCollateral
    split
    next => exact keyed
    next valid =>
      obtain ⟨stable, native⟩ := CollateralParams.validate_denom valid
      cases e.store.collateralPools.get? params.denom with
      | some pool => exact (keyed.setCollateralParams params).congr rfl rfl rfl rfl
      | none =>
        exact ((keyed.setCollateralPool stable native).setCollateralParams params).congr
          rfl rfl rfl rfl
  ledger := by
    unfold registerCollateral
    split <;> rfl
  accounts := by
    unfold registerCollateral
    split <;> rfl

/-! ### Transactions -/

theorem Effect.keyed {cleared : Nat} {plan : Plan} (effect : e.Effect cleared plan)
    (keyed : e.store.Keyed) : (e.store.update plan.update).Keyed := by
  cases effect with
  | swap denom before after change fee loaded written changed =>
    -- The pool that is written has the name of the pool that was loaded.
    obtain ⟨name, stable, native⟩ := keyed.backingPool denom _ (backing_ok loaded).2
    have same := changed.denom.trans name
    rw [written]
    exact (keyed.setBackingPool (same ▸ stable) (same ▸ native)).congr rfl rfl rfl rfl
  | position owner denom mayOpen before after change fee loaded written changed =>
    obtain ⟨name, stable, native⟩ := keyed.collateralPool denom _ (position_ok loaded).2.1
    have same := changed.poolDenom.trans name
    rw [written]
    exact ((keyed.setCollateralPool (same ▸ stable) (same ▸ native)).setPosition _).congr
      rfl rfl rfl rfl

/-- A request that fails changes nothing. -/
theorem transact_refused {sender : Principal} {request : Request} {failure : Failure}
    (refused : (e.transact sender request).result = .error failure) :
    (e.transact sender request).engine = e := by
  unfold transact at refused ⊢
  split at refused
  next => rfl
  next plan planned =>
    unfold carryOut at refused ⊢
    dsimp only at refused ⊢
    split at refused
    next => rfl
    next => cases refused

/-- A request that succeeds was planned, and its plan carried out. -/
theorem transact_ok {sender : Principal} {request : Request} {response : Response}
    (returned : (e.transact sender request).result = .ok response) :
    ∃ plan ledger, e.plan sender request = .ok plan ∧
      e.ledger.apply (dropZeros plan.moves) = .ok ledger ∧ response = plan.response ∧
      (e.transact sender request).engine
        = { e with ledger, store := e.store.update plan.update }.record plan.event := by
  unfold transact at returned ⊢
  split at returned
  next => cases returned
  next plan planned =>
    unfold carryOut at returned ⊢
    dsimp only at returned ⊢
    split at returned
    next => cases returned
    next ledger applied =>
      cases returned
      exact ⟨plan, ledger, planned, applied, rfl, rfl⟩

/-- A request that fails was not planned, or the ledger refused its plan. -/
theorem transact_error {sender : Principal} {request : Request} {failure : Failure}
    (failed : (e.transact sender request).result = .error failure) :
    e.plan sender request = .error failure ∨
      ∃ plan error, e.plan sender request = .ok plan ∧
        e.ledger.apply (dropZeros plan.moves) = .error error ∧
        failure = .rejected (.ledger error) := by
  unfold transact at failed
  split at failed
  next unplanned =>
    cases failed
    exact .inl unplanned
  next plan planned =>
    unfold carryOut at failed
    dsimp only at failed
    split at failed
    next error refused =>
      cases failed
      exact .inr ⟨plan, error, planned, refused, rfl⟩
    next => cases failed

/-- A request whose plan the ledger accepts succeeds. -/
theorem transact_of_plan {sender : Principal} {request : Request} {plan : Plan} {ledger : Ledger}
    (planned : e.plan sender request = .ok plan)
    (applied : e.ledger.apply (dropZeros plan.moves) = .ok ledger) :
    (e.transact sender request).result = .ok plan.response ∧
      (e.transact sender request).engine
        = { e with ledger, store := e.store.update plan.update }.record plan.event := by
  simp [transact, planned, carryOut, applied]

/-! ### Steps -/

def issuedBy (e : Engine) (action : Action) (denom : Denom) : Int :=
  match action with
  | .fund account coin =>
    match (e.fund account coin).1 with
    | .ok _ => coin.inDenom denom
    | .error _ => 0
  | _ => 0

/-- The interest that an action clears. -/
def clearedBy (e : Engine) (action : Action) : Nat :=
  match action with
  | .transact sender request =>
    match (e.transact sender request).result with
    | .ok _ => e.clearedFor request
    | .error _ => 0
  | _ => 0

/-- What an action does to a sound engine. -/
inductive Step (e : Engine) : Action → Engine → Prop where
  | still {action : Action} {after : Engine} (undisturbed : e.Undisturbed after)
      (issued : ∀ denom, e.issuedBy action denom = 0) (cleared : e.clearedBy action = 0) :
      e.Step action after
  | funded {account : Account} {coin : Coin} {after : Engine} (store : after.store = e.store)
      (moved : e.ledger.Shifted (coin.flow none (some account)) (coin.issue none (some account))
        after.ledger)
      (accounts : after.accounts = e.accounts)
      (issued : ∀ denom, e.issuedBy (.fund account coin) denom = coin.inDenom denom) :
      e.Step (.fund account coin) after
  | carriedOut {sender : Principal} {request : Request} {plan : Plan} {after : Engine}
      (effect : e.Effect (e.clearedBy (.transact sender request)) plan)
      (store : after.store = e.store.update plan.update)
      (moved : e.ledger.Shifted (batchFlow plan.moves) (batchIssue plan.moves) after.ledger)
      (accounts : after.accounts = e.accounts) :
      e.Step (.transact sender request) after

/-- Records stand under their own names, and every unit that exists is held by someone. -/
structure Sound (e : Engine) : Prop where
  keyed : e.store.Keyed
  conserved : e.ledger.Conserved

private theorem fund_step (sound : e.Sound) (account : Account) (coin : Coin) :
    e.Step (.fund account coin) (e.act (.fund account coin)) := by
  cases given : (e.ledger.fund account coin).1 with
  | ok =>
    have issued (denom : Denom) : e.issuedBy (.fund account coin) denom = coin.inDenom denom := by
      simp [issuedBy, fund, given]
    exact .funded rfl (Ledger.fund_ok given) rfl issued
  | error =>
    have issued (denom : Denom) : e.issuedBy (.fund account coin) denom = 0 := by
      simp [issuedBy, fund, given]
    have ledger : (e.act (.fund account coin)).ledger = e.ledger :=
      Ledger.fund_refused sound.conserved given
    exact .still (.of_tables rfl rfl rfl rfl rfl rfl ledger rfl) issued rfl

private theorem transact_step (sound : e.Sound) (sender : Principal) (request : Request) :
    e.Step (.transact sender request) (e.act (.transact sender request)) := by
  cases returned : (e.transact sender request).result with
  | error failure =>
    have same : e.act (.transact sender request) = e := transact_refused returned
    rw [same]
    exact .still (.refl e) (fun _ => rfl) (by simp [clearedBy, returned])
  | ok response =>
    obtain ⟨plan, ledger, planned, applied, -, carried⟩ := transact_ok returned
    have after : e.act (.transact sender request) = _ := carried
    have cleared : e.clearedBy (.transact sender request) = e.clearedFor request := by
      simp [clearedBy, returned]
    have effect : e.Effect (e.clearedBy (.transact sender request)) plan := by
      rw [cleared]
      exact plan_effect sound.keyed planned
    have moved := Ledger.apply_shifted applied
    rw [after]
    -- The ledger was given the movements without their zero coins.
    refine .carriedOut effect rfl ⟨?_, ?_, moved.conserved⟩ rfl
    · intro account denom
      rw [← batchFlow_dropZeros]
      exact moved.balance account denom
    · intro conserved denom
      rw [← batchIssue_dropZeros]
      exact moved.supply conserved denom

/-- Every action of a sound engine is one of three steps. -/
theorem act_step (sound : e.Sound) (action : Action) : e.Step action (e.act action) := by
  cases action with
  | setParams params => exact .still (setParams_undisturbed params) (fun _ => rfl) rfl
  | registerBacking params => exact .still (registerBacking_undisturbed params) (fun _ => rfl) rfl
  | registerCollateral params =>
    exact .still (registerCollateral_undisturbed params) (fun _ => rfl) rfl
  | endBlock adjust => exact .still (endBlock_undisturbed adjust) (fun _ => rfl) rfl
  | beginBlock | setRate | removeRate =>
    exact .still (.of_tables rfl rfl rfl rfl rfl rfl rfl rfl) (fun _ => rfl) rfl
  | fund account coin => exact fund_step sound account coin
  | transact sender request => exact transact_step sound sender request

/-! ### Soundness -/

theorem Step.sound {action : Action} {after : Engine} (step : e.Step action after)
    (sound : e.Sound) : after.Sound := by
  cases step with
  | still undisturbed =>
    refine ⟨undisturbed.keyed sound.keyed, ?_⟩
    rw [undisturbed.ledger]
    exact sound.conserved
  | funded store moved =>
    refine ⟨?_, moved.conserved sound.conserved⟩
    rw [store]
    exact sound.keyed
  | carriedOut effect store moved =>
    refine ⟨?_, moved.conserved sound.conserved⟩
    rw [store]
    exact effect.keyed sound.keyed

theorem Step.accounts {action : Action} {after : Engine} (step : e.Step action after) :
    after.accounts = e.accounts := by
  cases step with
  | still undisturbed => exact undisturbed.accounts
  | funded _ _ accounts => exact accounts
  | carriedOut _ _ _ accounts => exact accounts

theorem act_sound (sound : e.Sound) (action : Action) : (e.act action).Sound :=
  (act_step sound action).sound sound

theorem fresh_sound (params : Params) (accounts : ModuleAccounts) :
    (fresh params accounts).Sound where
  keyed := Store.keyed_new params
  conserved _ := rfl

/-- What every action keeps in sound engines holds after every run. -/
theorem run_keeps (Kept : Engine → Prop)
    (step : ∀ e action, e.Sound → Kept e → Kept (e.act action)) (sound : e.Sound) (start : Kept e)
    (actions : List Action) : Kept (e.run actions) := by
  -- Each action leaves a sound engine, from which the rest of the run starts.
  induction actions generalizing e with
  | nil => exact start
  | cons action rest ih => exact ih (act_sound sound action) (step e action sound start)

theorem run_sound (sound : e.Sound) (actions : List Action) : (e.run actions).Sound :=
  run_keeps Sound (fun _ action sound _ => act_sound sound action) sound sound actions

theorem run_accounts (sound : e.Sound) (actions : List Action) :
    (e.run actions).accounts = e.accounts := by
  have kept (middle : Engine) (action : Action) (sound : middle.Sound)
      (same : middle.accounts = e.accounts) : (middle.act action).accounts = e.accounts :=
    (act_step sound action).accounts.trans same
  exact run_keeps (fun middle => middle.accounts = e.accounts) kept sound rfl actions

/-- What a run counts, action by action. -/
def tally (count : Engine → Action → Int) (e : Engine) : List Action → Int
  | [] => 0
  | action :: rest => count e action + (e.act action).tally count rest

/-! ### A short run -/

/-- A loan against ether that gathers interest and is liquidated in part after ether has lost half
of its value. -/
def loanRun : List Action :=
  let borrower : Principal := ⟨[1], by decide⟩
  let liquidator : Principal := ⟨[2], by decide⟩
  [.registerCollateral
      { denom := "ether"
        enabled := true
        maxCollateral := none
        maxStableMint := none
        liquidationThreshold := percent 80
        loanToValue := percent 70
        basicLoanToValue := percent 60
        catalyticRatio := percent 5
        liquidationFee := percent 10
        mintFee := some (percent 1)
        interestRate := percent 10 },
    .setRate "ether" 1, .setRate nativeDenom 1, .setRate stableDenom 1,
    .fund (.user borrower) ⟨"ether", 1000⟩, .fund (.user borrower) ⟨nativeDenom, 100⟩,
    .fund (.user liquidator) ⟨stableDenom, 1000⟩,
    .transact borrower (.deposit ⟨none, ⟨"ether", 1000⟩, ⟨nativeDenom, 40⟩⟩),
    .transact borrower (.borrow ⟨none, "ether", ⟨stableDenom, 500⟩⟩),
    .beginBlock 2000000,
    .setRate "ether" (percent 50),
    .transact liquidator (.liquidate ⟨none, borrower, ⟨"ether", 100⟩, ⟨stableDenom, 1000⟩⟩)]

end Engine

end Stablecoin
