import Stablecoin.Proofs.EventBooks
import Stablecoin.Proofs.Movement

/-!
# What a transaction touches

A transaction that fails leaves the engine as it was. One that succeeds records one event, which
says what was moved, and writes either the total and one pool of the backing records or the total,
one pool and one position of the collateral records. Nothing is assumed of the records but that each
stands under its own name: what is loaded under a name is written back under the name it carries.
-/
namespace Stablecoin

/-- Each record that is loaded to be written back stands under the name that it carries. -/
structure Store.Filed (s : Store) : Prop extends Store.Named s where
  backingPool : ∀ denom pool, s.backingPools.get? denom = some pool → pool.backing.denom = denom
  collateralPool : ∀ denom pool, s.collateralPools.get? denom = some pool →
    pool.collateral.denom = denom

theorem Store.Keyed.filed {s : Store} (keyed : s.Keyed) : s.Filed where
  toNamed := keyed.named
  backingPool denom pool stored := (keyed.backingPool denom pool stored).1
  collateralPool denom pool stored := (keyed.collateralPool denom pool stored).1

/-- The backing pool that a request works on, if it works on one. -/
def Request.backing? : Request → Option Denom
  | mint r => some r.backingInMax.denom
  | burn r => some r.backingOutMin.denom
  | buyback r => some r.backingOutMin.denom
  | reback r => some r.backingIn.denom
  | borrow _ | repay _ | deposit _ | redeem _ | liquidate _ => none

/-! ### Stores -/

/-- Two stores that differ in one backing pool and its total at most, if one is named, and in one
position, its pool and its total at most, if one is named. -/
structure Store.SameBut (s : Store) (backing? : Option Denom)
    (position? : Option (Principal × Denom)) (after : Store) : Prop where
  params : after.params = s.params
  ratioAdjustedAt : after.ratioAdjustedAt = s.ratioAdjustedAt
  backingParams : after.backingParams = s.backingParams
  collateralParams : after.collateralParams = s.collateralParams
  backingTotal : backing? = none → after.backingTotal = s.backingTotal
  backingPools : ∀ denom, backing? ≠ some denom →
    after.backingPools.get? denom = s.backingPools.get? denom
  collateralTotal : position? = none → after.collateralTotal = s.collateralTotal
  collateralPools : ∀ denom, (∀ owner, position? ≠ some (owner, denom)) →
    after.collateralPools.get? denom = s.collateralPools.get? denom
  positions : ∀ owner denom, position? ≠ some (owner, denom) →
    after.positions.get? (owner, denom) = s.positions.get? (owner, denom)

namespace Store

theorem update_backing_sameBut (s : Store) (records : BackingRecords) :
    s.SameBut (some records.pool.backing.denom) none (s.update (.backing records)) where
  params := rfl
  ratioAdjustedAt := rfl
  backingParams := rfl
  collateralParams := rfl
  backingTotal named := by cases named
  backingPools denom other := by
    have elsewhere : denom ≠ records.pool.backing.denom := fun same => other (same ▸ rfl)
    simp [update, setBackingPool, Table.get?_insert, elsewhere]
  collateralTotal _ := rfl
  collateralPools _ _ := rfl
  positions _ _ _ := rfl

/-- The pool that is written has to be that of the position. -/
theorem update_position_sameBut (s : Store) {records : PositionRecords}
    (pooled : records.pool.collateral.denom = records.position.collateral.denom) :
    s.SameBut none (some (records.position.owner, records.position.collateral.denom))
      (s.update (.position records)) where
  params := rfl
  ratioAdjustedAt := rfl
  backingParams := rfl
  collateralParams := rfl
  backingTotal _ := rfl
  backingPools _ _ := rfl
  collateralTotal named := by cases named
  collateralPools denom other := by
    have elsewhere : denom ≠ records.pool.collateral.denom := by
      rintro rfl
      exact other records.position.owner (pooled ▸ rfl)
    simp [update, setPosition, setCollateralPool, Table.get?_insert, elsewhere]
  positions owner denom other := by
    have elsewhere : (owner, denom)
        ≠ (records.position.owner, records.position.collateral.denom) :=
      fun same => other (congrArg some same.symm)
    simp only [update, setPosition, setCollateralPool, Table.get?_insert, elsewhere, if_false]

end Store

/-! ### Events -/

/-- What an event says was moved. -/
def Event.movement? : Event → Option Movement
  | mintBySwap sender receiver coinIn coinOut fee => some
      { sender, receiver, debtor := sender, paid := coinIn, given := [coinOut], fee := [fee] }
  | burnBySwap sender receiver coinIn coinOut fee => some
      { sender, receiver, debtor := sender, paid := [coinIn], given := coinOut, fee := [fee] }
  | buyBacking sender receiver coinIn coinOut fee => some
      { sender, receiver, debtor := sender, paid := [coinIn], given := [coinOut], fee := [fee] }
  | sellBacking sender receiver coinIn coinOut fee => some
      { sender, receiver, debtor := sender, paid := [coinIn], given := [coinOut], fee := [fee] }
  | mintByCollateral sender receiver coinOut fee => some
      { sender, receiver, debtor := sender, given := [coinOut], fee := [fee] }
  | burnByCollateral sender _ coinIn fee => some
      { sender, receiver := sender, debtor := sender, paid := [coinIn], fee := [fee] }
  | depositCollateral sender receiver coinIn => some
      { sender, receiver, debtor := sender, paid := coinIn }
  | redeemCollateral sender receiver coinOut => some
      { sender, receiver, debtor := sender, given := coinOut }
  | liquidateCollateral sender receiver debtor coinIn coinOut fee => some
      { sender, receiver, debtor, paid := [coinIn], given := [coinOut], fee := [fee] }
  | registerBacking .. | registerCollateral .. | setParams | adjustBackingRatio .. => none

/-- The part of a movement that is recorded: what is paid and what is given, and the fee. A refund
is not, nor what is minted and burned on the way. -/
def Movement.recorded (m : Movement) : Movement :=
  { m with refund := [], minted := [], burned := [] }

namespace Engine

variable {e : Engine} {sender : Principal} {request : Request} {plan : Plan}

/-- An event is right if it is named for its request and says what is moved according to the
answer. -/
theorem event_of_movement {event : Event} {response : Response} {m : Movement}
    (recorded : plan.event = event) (answer : plan.response = response)
    (named : event.name = request.name) (reported : e.movement? sender request response = some m)
    (told : event.movement? = some m.recorded) :
    plan.event.name = request.name ∧
      ∀ m, e.movement? sender request plan.response = some m →
        plan.event.movement? = some m.recorded := by
  rw [recorded, answer]
  refine ⟨named, ?_⟩
  intro other same
  rw [reported] at same
  rw [told, Option.some.inj same]

/-- The event of a plan is named for its request and says what the plan answers. -/
theorem plan_event (planned : e.plan sender request = .ok plan) :
    plan.event.name = request.name ∧
      ∀ m, e.movement? sender request plan.response = some m →
        plan.event.movement? = some m.recorded := by
  cases request with
  | mint r =>
    obtain ⟨-, q, _, _, -, -, -, -, -, -, event, answer⟩ := planMint_ok planned
    exact event_of_movement event answer rfl rfl rfl
  | burn r =>
    obtain ⟨-, q, _, _, -, -, -, -, -, -, -, -, event, answer⟩ := planBurn_ok planned
    exact event_of_movement event answer rfl rfl rfl
  | buyback r =>
    obtain ⟨q, _, _, -, -, -, -, -, -, event, answer⟩ := planBuyback_ok planned
    exact event_of_movement event answer rfl rfl rfl
  | reback r =>
    obtain ⟨-, q, _, _, -, -, -, -, -, -, event, answer⟩ := planReback_ok planned
    exact event_of_movement event answer rfl rfl rfl
  | deposit r =>
    obtain ⟨_, -, -, -, event, answer⟩ := planDeposit_ok planned
    exact event_of_movement event answer rfl rfl rfl
  | redeem r =>
    obtain ⟨_, -, -, -, event, answer⟩ := planRedeem_ok planned
    exact event_of_movement event answer rfl rfl rfl
  | borrow r =>
    obtain ⟨fee, _, -, -, -, event, answer⟩ := planBorrow_ok planned
    exact event_of_movement event answer rfl rfl rfl
  | repay r =>
    obtain ⟨parts, _, -, -, -, event, answer⟩ := planRepay_ok planned
    exact event_of_movement event answer rfl rfl rfl
  | liquidate r =>
    obtain ⟨parts, _, -, -, -, event, answer⟩ := planLiquidate_ok planned
    rw [event, answer]
    refine ⟨rfl, ?_⟩
    -- What the debtor owed decides the refund only, which is not recorded.
    intro m reported
    obtain ⟨debt, -, rfl⟩ := Option.map_eq_some_iff.mp reported
    rfl

/-- The pool that is written with a position is the position's. -/
theorem Tells.pool_denom (tells : e.Tells plan) (filed : e.store.Filed)
    {records : PositionRecords} (written : plan.update = .position records) :
    records.pool.collateral.denom = records.position.collateral.denom := by
  cases tells with
  | swap _ _ _ _ _ other =>
    rw [other] at written
    cases written
  | position owner denom mayOpen before after change loaded same changed =>
    rw [same] at written
    cases written
    have pool := filed.collateralPool denom _ (position_ok loaded).2.1
    have position := (position_owned filed.toNamed loaded).2
    rw [changed.poolDenom, changed.denom, pool, position]

/-- A plan writes the records that its request works on. -/
theorem plan_sameBut (filed : e.store.Filed) (planned : e.plan sender request = .ok plan) :
    e.store.SameBut request.backing? (request.position? sender)
      (e.store.update plan.update) := by
  -- A pool is written back under the name that it was loaded by.
  have swap {denom : Denom} {before after : BackingRecords} {change : BackingChange}
      (loaded : e.backing denom = .ok before) (changed : before.Changed change after) :
      e.store.SameBut (some denom) none (e.store.update (.backing after)) := by
    have named := filed.backingPool denom _ (backing_ok loaded).2
    rw [← changed.denom.trans named]
    exact e.store.update_backing_sameBut after
  cases request with
  | mint r =>
    obtain ⟨-, q, _, _, quoted, -, loaded, changed, -, written, -⟩ := planMint_ok planned
    have asked : q.backingIn.denom = r.backingInMax.denom := by
      obtain ⟨-, -, _, _, _, _, _, _, _, _, _, _, _, _, _, -, -, -, -, -, -, -, -, -, -, -, -, -,
        -, rfl⟩ := mintQuote_ok quoted
      rfl
    rw [asked] at loaded
    rw [written]
    exact swap loaded changed
  | burn r =>
    obtain ⟨-, _, _, _, -, -, -, -, loaded, changed, -, written, -⟩ := planBurn_ok planned
    rw [written]
    exact swap loaded changed
  | buyback r =>
    obtain ⟨_, _, _, -, -, loaded, changed, -, written, -⟩ := planBuyback_ok planned
    rw [written]
    exact swap loaded changed
  | reback r =>
    obtain ⟨-, _, _, _, -, -, loaded, changed, -, written, -⟩ := planReback_ok planned
    rw [written]
    exact swap loaded changed
  -- Every other request writes the position that it is known to work on.
  | borrow | repay | deposit | redeem | liquidate =>
    obtain ⟨_, -, none⟩ | ⟨records, written, works⟩ := plan_update filed.toNamed planned
    · cases none
    · have pooled := (plan_tells filed.toNamed planned).pool_denom filed written
      rw [written, works]
      exact e.store.update_position_sameBut pooled

/-- Whatever the records, as long as each stands under its own name, a transaction does nothing if
it fails. If it succeeds, it moves what it answers, records one event of its name that says so,
leaves the block height, the prices and the accounts alone, and of the store changes no more than
the records that its request works on. -/
theorem transact_footprint (filed : e.store.Filed) (sender : Principal) (request : Request) :
    let receipt := e.transact sender request
    let after := receipt.engine
    (∀ failure, receipt.result = .error failure → after = e) ∧
      ∀ response, receipt.result = .ok response →
        (∃ event m, after.events = e.events.record event ∧ event.name = request.name ∧
          e.movement? sender request response = some m ∧ event.movement? = some m.recorded ∧
          ∀ account denom, (after.ledger.balance account denom : Int)
            = e.ledger.balance account denom + m.change e.accounts account denom) ∧
        after.height = e.height ∧ after.prices = e.prices ∧ after.accounts = e.accounts ∧
        e.store.SameBut request.backing? (request.position? sender) after.store := by
  intro receipt after
  constructor
  · intro failure refused
    exact transact_refused refused
  · intro response returned
    obtain ⟨m, reported, moved, -⟩ := transact_moved returned
    obtain ⟨plan, ledger, planned, -, rfl, carried⟩ := transact_ok returned
    have left : after = _ := carried
    obtain ⟨named, tells⟩ := plan_event planned
    refine ⟨⟨plan.event, m, ?_, named, reported, tells m reported, moved.balance⟩, ?_⟩
    · rw [left]
      rfl
    · rw [left]
      exact ⟨rfl, rfl, rfl, plan_sameBut filed planned⟩

/-- The liquidation of a borrower's ether records itself, and the liquidator's own position, which
there is none of, stays missing. -/
theorem transact_footprint_loanRun :
    let borrower : Principal := ⟨[1], by decide⟩
    let liquidator : Principal := ⟨[2], by decide⟩
    let e := (fresh .initial .initial).run loanRun.dropLast
    let request := .liquidate ⟨none, borrower, ⟨"ether", 100⟩, ⟨stableDenom, 1000⟩⟩
    let response := .liquidate ⟨⟨stableDenom, 45⟩, ⟨"ether", 99⟩, ⟨"ether", 1⟩⟩
    let after := (e.transact liquidator request).engine
    e.store.Filed ∧ (e.transact liquidator request).result = .ok response ∧
      (∃ event, after.events = e.events.record event ∧ event.name = "liquidate_collateral") ∧
      after.store.positions.get? (liquidator, "ether")
        = e.store.positions.get? (liquidator, "ether") := by
  intro borrower liquidator e request response after
  have sound : e.Sound := run_sound (fresh_sound .initial .initial) loanRun.dropLast
  have filed := sound.keyed.filed
  have returned : (e.transact liquidator request).result = .ok response := by decide +kernel
  obtain ⟨-, done⟩ := transact_footprint filed liquidator request
  obtain ⟨⟨event, _, recorded, named, -⟩, -, -, -, same⟩ := done response returned
  exact ⟨filed, returned, ⟨event, recorded, named⟩,
    same.positions liquidator "ether" (by decide)⟩

end Engine

end Stablecoin
