import Stablecoin.Proofs.Footprint
import Stablecoin.Proofs.Independence
import Stablecoin.Proofs.LedgerOrder

/-!
# Requests on different positions commute

Two requests that work on different positions share the pool, if their positions are in the same
asset, the total, and the ledger. To each of these they only add, by amounts that depend on their
own position alone. So if both orders succeed, they end alike.
-/
namespace Stablecoin

namespace Table

variable {κ α : Type} [Ord κ] [Std.TransOrd κ] [Std.LawfulEqOrd κ] [DecidableEq κ]

theorem insert_comm (t : Table κ α) {key key' : κ} (apart : key ≠ key') (value value' : α) :
    (t.insert key value).insert key' value' = (t.insert key' value').insert key value := by
  refine Table.ext_get? fun other => ?_
  simp only [get?_insert]
  split <;> split <;> simp_all

theorem insert_insert (t : Table κ α) (key : κ) (value value' : α) :
    (t.insert key value).insert key value' = t.insert key value' := by
  refine Table.ext_get? fun other => ?_
  simp only [get?_insert]
  split <;> rfl

end Table

/-- Two pools that are changed one after the other, or one pool that is changed twice: each change
finds its pool as the other one left it. -/
theorem insert_pools_comm {t : Table Denom CollateralPool} {denom denom' : Denom}
    {change change' : PositionChange} {pool pool' start start' : CollateralPool}
    {first first' second second' : CollateralPool} (found : t.get? denom = some pool)
    (found' : t.get? denom' = some pool')
    (later : (t.insert denom first).get? denom' = some start')
    (later' : (t.insert denom' second).get? denom = some start)
    (moved : pool.Moved change first) (moved' : pool'.Moved change' second)
    (again : start'.Moved change' second') (again' : start.Moved change first') :
    (t.insert denom first).insert denom' second'
      = (t.insert denom' second).insert denom first' := by
  by_cases shared : denom = denom'
  · subst shared
    rw [Table.get?_insert_self] at later later'
    cases later
    cases later'
    cases found.symm.trans found'
    rw [Table.insert_insert, Table.insert_insert, moved.comm again moved' again']
  · -- In different assets, neither change sees the pool of the other.
    rw [Table.get?_insert, if_neg (Ne.symm shared)] at later
    rw [Table.get?_insert, if_neg shared] at later'
    cases found'.symm.trans later
    cases found.symm.trans later'
    rw [moved.unique again', moved'.unique again, Table.insert_comm _ shared]

namespace Engine

variable {e : Engine}

/-- A request leaves all that a request on another position reads, but for the amounts of the pool
and of the total. -/
theorem transact_agreeOn {sender : Principal} {request : Request} {response : Response}
    {key : Principal × Denom} {owner : Principal} {denom : Denom} (filed : e.store.Filed)
    (works : request.position? sender = some key) (apart : key ≠ (owner, denom))
    (returned : (e.transact sender request).result = .ok response) :
    e.AgreeOn (e.transact sender request).engine owner denom := by
  obtain ⟨plan, ledger, planned, -, -, carried⟩ := transact_ok returned
  have same := plan_sameBut filed planned
  have elsewhere : request.position? sender ≠ some (owner, denom) := by
    rw [works]
    exact fun named => apart (Option.some.inj named)
  rw [carried]
  exact
    { params := same.params
      collateralParams := same.collateralParams
      position := same.positions owner denom elsewhere
      prices := rfl
      accounts := rfl
      height := rfl }

/-- What a step makes of shared records is written under the name that they were loaded by. -/
theorem InStep.poolDenom {other : Engine} {owner : Principal} {denom : Denom}
    {after after' : PositionRecords} (keyed : e.store.Keyed)
    (step : e.InStep other owner denom after after') :
    after.pool.collateral.denom = denom := by
  obtain ⟨_, before, _, loaded, -, step⟩ := step
  obtain ⟨_, moved, -⟩ := step.shared
  rw [moved.pool.collateral.denom]
  exact (keyed.collateralPool denom _ (position_ok loaded).2.1).1

theorem InStep.symm {other : Engine} {owner : Principal} {denom : Denom}
    {after after' : PositionRecords} (step : e.InStep other owner denom after after') :
    other.InStep e owner denom after' after := by
  obtain ⟨mayOpen, before, before', loaded, loaded', step⟩ := step
  obtain ⟨change, moved, moved'⟩ := step.shared
  exact ⟨mayOpen, before', before, loaded', loaded, step.position.symm, change, moved', moved⟩

/-- Writing the records of a position, table by table. -/
theorem update_position (s : Store) {r : PositionRecords} {owner : Principal} {denom : Denom}
    (named : (r.position.owner, r.position.collateral.denom) = (owner, denom))
    (pooled : r.pool.collateral.denom = denom) :
    s.update (.position r)
      = { s with
          collateralTotal := some r.total
          collateralPools := s.collateralPools.insert denom r.pool
          positions := s.positions.insert (owner, denom) r.position } := by
  rw [← named, ← pooled]
  rfl

/-- The records of two different positions can be written in either order, each as the request
makes them that comes to it in that order. -/
theorem update_comm {once other : Engine} {owner owner' : Principal} {denom denom' : Denom}
    {first first' second second' : PositionRecords} (keyed : e.store.Keyed)
    (onceKeyed : once.store.Keyed) (otherKeyed : other.store.Keyed)
    (apart : (owner, denom) ≠ (owner', denom'))
    (named : (first.position.owner, first.position.collateral.denom) = (owner, denom))
    (named' : (second.position.owner, second.position.collateral.denom) = (owner', denom'))
    (wrote : once.store = e.store.update (.position first))
    (wrote' : other.store = e.store.update (.position second))
    (step : e.InStep other owner denom first first')
    (step' : e.InStep once owner' denom' second second') :
    once.store.update (.position second') = other.store.update (.position first') := by
  have later :=
    update_position once.store (step'.position ▸ named') (step'.symm.poolDenom onceKeyed)
  have later' :=
    update_position other.store (step.position ▸ named) (step.symm.poolDenom otherKeyed)
  rw [update_position _ named (step.poolDenom keyed)] at wrote
  rw [update_position _ named' (step'.poolDenom keyed)] at wrote'
  obtain ⟨_, before, before', loaded, loaded', ⟨same, _, moved, moved'⟩⟩ := step
  obtain ⟨_, start, start', found, found', ⟨same', _, shifted, shifted'⟩⟩ := step'
  obtain ⟨total, pool, -⟩ := position_ok loaded
  obtain ⟨total', pool', -⟩ := position_ok loaded'
  obtain ⟨startTotal, startPool, -⟩ := position_ok found
  obtain ⟨startTotal', startPool', -⟩ := position_ok found'
  rw [wrote'] at total' pool'
  rw [wrote] at startTotal' startPool'
  have totals : second'.total = first'.total := by
    -- Each request finds the total as the other one left it.
    have common : start.total = before.total := Option.some.inj (startTotal.symm.trans total)
    have left : first.total = start'.total := Option.some.inj startTotal'
    have left' : second.total = before'.total := Option.some.inj total'
    exact moved.total.comm (left ▸ shifted'.total) (common ▸ shifted.total) (left' ▸ moved'.total)
  have pools : (e.store.collateralPools.insert denom first.pool).insert denom' second'.pool
      = (e.store.collateralPools.insert denom' second.pool).insert denom first'.pool :=
    insert_pools_comm pool startPool startPool' pool' moved.pool shifted.pool shifted'.pool
      moved'.pool
  have positions : (e.store.positions.insert (owner, denom) first.position).insert (owner', denom')
        second'.position
      = (e.store.positions.insert (owner', denom') second.position).insert (owner, denom)
        first'.position := by
    rw [same, same', Table.insert_comm _ apart]
  rw [later, later', wrote, wrote']
  simp only [totals, pools, positions]

/-- The position that a plan writes is the one that its request works on. -/
theorem plan_writes {sender : Principal} {request : Request} {plan : Plan}
    {key : Principal × Denom} {r : PositionRecords} (named : e.store.Named)
    (works : request.position? sender = some key) (planned : e.plan sender request = .ok plan)
    (written : plan.update = .position r) :
    (r.position.owner, r.position.collateral.denom) = key := by
  obtain ⟨_, swapped, -⟩ | ⟨_, same, worked⟩ := plan_update named planned
  · cases swapped.symm.trans written
  · cases same.symm.trans written
    exact Option.some.inj (worked.symm.trans works)

/-- Two requests that work on different positions and succeed in both orders end alike: the same
store, the same ledger and the same answers. Only their events stand in the order they came in. -/
theorem transact_comm (sound : e.Sound) {first second : Principal} {request request' : Request}
    {key key' : Principal × Denom} {response answer response' answer' : Response}
    (works : request.position? first = some key) (works' : request'.position? second = some key')
    (apart : key ≠ key') (once : (e.transact first request).result = .ok response)
    (after : ((e.transact first request).engine.transact second request').result = .ok answer')
    (other : (e.transact second request').result = .ok response')
    (later : ((e.transact second request').engine.transact first request).result = .ok answer) :
    let both := ((e.transact first request).engine.transact second request').engine
    let swapped := ((e.transact second request').engine.transact first request).engine
    both.store = swapped.store ∧ both.ledger = swapped.ledger ∧ answer = response ∧
      answer' = response' ∧ ∃ event event',
        both.events = e.events ++ [event, event'] ∧
          swapped.events = e.events ++ [event', event] := by
  intro both swapped
  have keyed := sound.keyed
  have onceKeyed := (act_sound sound (.transact first request)).keyed
  have otherKeyed := (act_sound sound (.transact second request')).keyed
  have agree := transact_agreeOn keyed.filed works' apart.symm other
  have agree' := transact_agreeOn keyed.filed works apart once
  obtain ⟨plan, ledger, planned, applied, rfl, carried⟩ := transact_ok once
  obtain ⟨plan', ledger', planned', applied', rfl, carried'⟩ := transact_ok other
  obtain ⟨_, final, replanned', reapplied', rfl, recarried'⟩ := transact_ok after
  obtain ⟨_, final', replanned, reapplied, rfl, recarried⟩ := transact_ok later
  -- Coming second, each request has the plan that it has coming first, but for the shared records.
  obtain ⟨r, _, written, rfl, step⟩ := plan_inStep keyed.named works agree planned replanned
  obtain ⟨r', _, written', rfl, step'⟩ := plan_inStep keyed.named works' agree' planned' replanned'
  have named := plan_writes keyed.named works planned written
  have named' := plan_writes keyed.named works' planned' written'
  have wrote : (e.transact first request).engine.store = e.store.update (.position r) := by
    rw [carried, written]
    rfl
  have wrote' : (e.transact second request').engine.store = e.store.update (.position r') := by
    rw [carried', written']
    rfl
  have stores := update_comm keyed onceKeyed otherKeyed apart named named' wrote wrote' step step'
  rw [carried] at reapplied'
  rw [carried'] at reapplied
  have ledgers := Ledger.apply_comm sound.conserved applied reapplied' applied' reapplied
  have left : both = _ := recarried'
  have left' : swapped = _ := recarried
  rw [left, left']
  refine ⟨stores, ledgers, rfl, rfl, plan.event, plan'.event, ?_, ?_⟩
  · rw [carried]
    exact List.append_assoc _ _ _
  · rw [carried']
    exact List.append_assoc _ _ _

/-- After every run, requests on different positions commute. -/
theorem run_comm (params : Params) (accounts : ModuleAccounts) (actions : List Action)
    {first second : Principal} {request request' : Request} {key key' : Principal × Denom}
    {response answer response' answer' : Response} (works : request.position? first = some key)
    (works' : request'.position? second = some key') (apart : key ≠ key') :
    let e := (fresh params accounts).run actions
    let once := e.transact first request
    let both := once.engine.transact second request'
    let other := e.transact second request'
    let swapped := other.engine.transact first request
    once.result = .ok response → both.result = .ok answer' → other.result = .ok response' →
      swapped.result = .ok answer →
      both.engine.store = swapped.engine.store ∧ both.engine.ledger = swapped.engine.ledger ∧
        answer = response ∧ answer' = response' ∧ ∃ event event',
          both.engine.events = e.events ++ [event, event'] ∧
          swapped.engine.events = e.events ++ [event', event] := by
  intro e once both other swapped returned returnedAfter returned' returnedAfter'
  have sound : e.Sound := run_sound (fresh_sound params accounts) actions
  exact transact_comm sound works works' apart returned returnedAfter returned' returnedAfter'

/-- A deposit to the liquidator's own position, which the borrower pays for, can come before or
after the liquidation of the borrower's. -/
theorem run_comm_loanRun :
    let borrower : Principal := ⟨[1], by decide⟩
    let liquidator : Principal := ⟨[2], by decide⟩
    let e := (fresh .initial .initial).run loanRun.dropLast
    let liquidation := .liquidate ⟨none, borrower, ⟨"ether", 100⟩, ⟨stableDenom, 1000⟩⟩
    let deposit := .deposit ⟨some liquidator, ⟨"ether", 0⟩, ⟨nativeDenom, 10⟩⟩
    let sold := .liquidate ⟨⟨stableDenom, 45⟩, ⟨"ether", 99⟩, ⟨"ether", 1⟩⟩
    let once := e.transact liquidator liquidation
    let both := once.engine.transact borrower deposit
    let other := e.transact borrower deposit
    let swapped := other.engine.transact liquidator liquidation
    liquidation.position? liquidator = some (borrower, "ether") ∧
      deposit.position? borrower = some (liquidator, "ether") ∧ borrower ≠ liquidator ∧
      once.result = .ok sold ∧ both.result = .ok .deposit ∧ other.result = .ok .deposit ∧
      swapped.result = .ok sold ∧ both.engine.store = swapped.engine.store ∧
      both.engine.ledger = swapped.engine.ledger := by
  intro borrower liquidator e liquidation deposit sold once both other swapped
  have works : liquidation.position? liquidator = some (borrower, "ether") := rfl
  have works' : deposit.position? borrower = some (liquidator, "ether") := rfl
  have others : borrower ≠ liquidator := by decide
  have apart : (borrower, "ether") ≠ (liquidator, "ether") :=
    fun same => others (Prod.mk.inj same).1
  have returned : once.result = .ok sold := by decide +kernel
  have returnedAfter : both.result = .ok .deposit := by decide +kernel
  have returned' : other.result = .ok .deposit := by decide +kernel
  have returnedAfter' : swapped.result = .ok sold := by decide +kernel
  have same := run_comm .initial .initial loanRun.dropLast works works' apart returned returnedAfter
    returned' returnedAfter'
  refine ⟨works, works', others, returned, returnedAfter, returned', returnedAfter', ?_⟩
  obtain ⟨stores, ledgers, -⟩ := same
  simp only [both, swapped, once, other, e]
  exact ⟨stores, ledgers⟩

end Engine

end Stablecoin
