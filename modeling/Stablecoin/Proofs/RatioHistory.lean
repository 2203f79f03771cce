import Stablecoin.Engine.Query
import Stablecoin.Proofs.Footprint

/-!
# Who moves the backing ratio

The ratio, the block of its last adjustment and the record of it in the log stand in three places.
The block and the record are written together, at the end of a block. The ratio is written there
too, but it is a field of the parameters, which governance replaces as a whole: the log tells the
ratio only as long as governance hands back the one that it found.
-/
namespace Stablecoin

namespace Event

/-- The ratio and the block that an event reports. -/
def adjustment? : Event → Option BackingRatioResponse
  | adjustBackingRatio ratio height => some ⟨ratio, height⟩
  | _ => none

/-- Only an adjustment is named one. -/
theorem adjustment?_of_name {event : Event} (named : event.name ≠ "adjust_backing_ratio") :
    event.adjustment? = none := by
  cases event with
  | adjustBackingRatio ratio height => exact absurd rfl named
  | _ => rfl

end Event

namespace EventLog

/-- The last adjustment of the backing ratio that a log reports. -/
def lastAdjustment? (log : EventLog) : Option BackingRatioResponse :=
  (log.filterMap Event.adjustment?).getLast?

theorem lastAdjustment?_record (log : EventLog) (event : Event) :
    (log.record event).lastAdjustment? = event.adjustment?.or log.lastAdjustment? := by
  cases reported : event.adjustment? <;>
    simp [lastAdjustment?, record, List.filterMap_append, reported]

theorem lastAdjustment?_record_of_none {event : Event} (log : EventLog)
    (silent : event.adjustment? = none) :
    (log.record event).lastAdjustment? = log.lastAdjustment? := by
  rw [lastAdjustment?_record, silent, Option.none_or]

end EventLog

/-- Governance hands back a ratio, if the action sets parameters that are accepted. -/
def Action.HandsBack (ratio : Decimal) : Action → Prop
  | .setParams params => params.validate = .ok () → params.backingRatio = ratio
  | _ => True

namespace Engine

/-- What the log tells of the ratio, given the one that the engine started with. -/
def ratioTold (e : Engine) (initial : Decimal) : BackingRatioResponse :=
  e.events.lastAdjustment?.getD ⟨initial, 0⟩

/-- Whenever parameters are set in the course of a run, they carry the ratio that is stored. -/
def RatioLeft (e : Engine) : List Action → Prop
  | [] => True
  | action :: rest => action.HandsBack e.store.params.backingRatio ∧ (e.act action).RatioLeft rest

/-- How an action treats the ratio with the block of its last adjustment, and the record of that
adjustment. -/
inductive RatioStep (e : Engine) : Action → Engine → Prop where
  | kept {action : Action} {after : Engine} (answer : after.backingRatio = e.backingRatio)
      (log : after.events.lastAdjustment? = e.events.lastAdjustment?) : e.RatioStep action after
  | adjusted {adjust : RatioInput → Option Decimal} {ratio : Decimal} {after : Engine}
      (chosen : adjust e.ratioInput = some ratio) (nonneg : ¬ratio < 0)
      (answer : after.backingRatio = ⟨ratio, e.height⟩)
      (log : after.events = e.events.record (.adjustBackingRatio ratio e.height)) :
      e.RatioStep (.endBlock adjust) after
  | replaced {params : Params} {after : Engine} (valid : params.validate = .ok ())
      (answer : after.backingRatio = ⟨params.backingRatio, e.backingRatio.lastUpdateBlock⟩)
      (log : after.events.lastAdjustment? = e.events.lastAdjustment?) :
      e.RatioStep (.setParams params) after

variable {e : Engine}

/-! ### Steps -/

theorem setParams_ratioStep (params : Params) :
    e.RatioStep (.setParams params) (e.setParams params).engine := by
  unfold setParams
  split
  next => exact .kept rfl rfl
  next valid => exact .replaced valid rfl (e.events.lastAdjustment?_record_of_none rfl)

theorem endBlock_ratioStep (adjust : RatioInput → Option Decimal) :
    e.RatioStep (.endBlock adjust) (e.endBlock adjust).engine := by
  unfold endBlock
  dsimp only
  split
  next => exact .kept rfl rfl
  next ratio chosen =>
    split
    next => exact .kept rfl rfl
    next nonneg => exact .adjusted chosen nonneg rfl rfl

theorem registerBacking_ratioStep (params : BackingParams) :
    e.RatioStep (.registerBacking params) (e.registerBacking params).engine := by
  unfold registerBacking
  split
  next => exact .kept rfl rfl
  next =>
    refine .kept ?_ (e.events.lastAdjustment?_record_of_none rfl)
    cases e.store.backingPools.get? params.denom <;> rfl

theorem registerCollateral_ratioStep (params : CollateralParams) :
    e.RatioStep (.registerCollateral params) (e.registerCollateral params).engine := by
  unfold registerCollateral
  split
  next => exact .kept rfl rfl
  next =>
    refine .kept ?_ (e.events.lastAdjustment?_record_of_none rfl)
    cases e.store.collateralPools.get? params.denom <;> rfl

theorem transact_ratioStep (sender : Principal) (request : Request) :
    e.RatioStep (.transact sender request) (e.transact sender request).engine := by
  cases returned : (e.transact sender request).result with
  | error failure =>
    rw [transact_refused returned]
    exact .kept rfl rfl
  | ok response =>
    obtain ⟨plan, ledger, planned, -, -, carried⟩ := transact_ok returned
    have named : plan.event.name ≠ "adjust_backing_ratio" := by
      rw [(plan_event planned).1]
      cases request <;> simp [Request.name]
    have silent := Event.adjustment?_of_name named
    rw [carried]
    refine .kept ?_ (e.events.lastAdjustment?_record_of_none silent)
    -- Neither kind of record is a parameter.
    cases plan.update <;> rfl

theorem act_ratioStep (action : Action) : e.RatioStep action (e.act action) := by
  cases action with
  | setParams params => exact setParams_ratioStep params
  | registerBacking params => exact registerBacking_ratioStep params
  | registerCollateral params => exact registerCollateral_ratioStep params
  | endBlock adjust => exact endBlock_ratioStep adjust
  | beginBlock | setRate | removeRate | fund => exact .kept rfl rfl
  | transact sender request => exact transact_ratioStep sender request

/-! ### What the log tells -/

variable {initial : Decimal} {action : Action} {after : Engine}

theorem ratioTold_congr (log : after.events.lastAdjustment? = e.events.lastAdjustment?) :
    after.ratioTold initial = e.ratioTold initial := by
  rw [ratioTold, ratioTold, log]

theorem ratioTold_of_adjusted {ratio : Decimal} {height : Height}
    (log : after.events = e.events.record (.adjustBackingRatio ratio height)) :
    after.ratioTold initial = ⟨ratio, height⟩ := by
  rw [ratioTold, log, EventLog.lastAdjustment?_record]
  rfl

theorem RatioStep.told (step : e.RatioStep action after)
    (handsBack : action.HandsBack e.store.params.backingRatio)
    (told : e.backingRatio = e.ratioTold initial) :
    after.backingRatio = after.ratioTold initial := by
  cases step with
  | kept answer log => rw [answer, told, ratioTold_congr log]
  | adjusted _ _ answer log => rw [answer, ratioTold_of_adjusted log]
  | replaced valid answer log =>
    -- What is handed back is the ratio that the log tells.
    rw [answer, handsBack valid, ratioTold_congr log]
    exact told

/-- Setting parameters does not touch the block, whatever ratio they carry. -/
theorem RatioStep.blockTold (step : e.RatioStep action after)
    (told : e.backingRatio.lastUpdateBlock = (e.ratioTold initial).lastUpdateBlock) :
    after.backingRatio.lastUpdateBlock = (after.ratioTold initial).lastUpdateBlock := by
  cases step with
  | kept answer log => rw [answer, told, ratioTold_congr log]
  | adjusted _ _ answer log => rw [answer, ratioTold_of_adjusted log]
  | replaced _ answer log => rw [answer, told, ratioTold_congr log]

/-! ### Runs -/

theorem run_ratioTold (told : e.backingRatio = e.ratioTold initial) {actions : List Action}
    (left : e.RatioLeft actions) :
    (e.run actions).backingRatio = (e.run actions).ratioTold initial := by
  induction actions generalizing e with
  | nil => exact told
  | cons action rest ih =>
    obtain ⟨handsBack, left⟩ := left
    exact ih ((act_ratioStep action).told handsBack told) left

theorem run_blockTold
    (told : e.backingRatio.lastUpdateBlock = (e.ratioTold initial).lastUpdateBlock)
    (actions : List Action) :
    (e.run actions).backingRatio.lastUpdateBlock
      = ((e.run actions).ratioTold initial).lastUpdateBlock := by
  induction actions generalizing e with
  | nil => exact told
  | cons action rest ih => exact ih ((act_ratioStep action).blockTold told)

/-- After every run, the block of the last adjustment is the one that the log tells, and so is the
ratio if governance always handed back the ratio that it found. The adjustment at the end of a block
and governance are all that ever moves the ratio, and the former is recorded. -/
theorem run_backingRatio (params : Params) (accounts : ModuleAccounts) (actions : List Action) :
    let start := fresh params accounts
    let e := start.run actions
    let told := e.ratioTold params.backingRatio
    e.backingRatio.lastUpdateBlock = told.lastUpdateBlock ∧
      (start.RatioLeft actions → e.backingRatio = told) ∧
      ∀ action, e.RatioStep action (e.act action) := by
  intro start e told
  exact ⟨run_blockTold rfl actions, fun left => run_ratioTold rfl left, act_ratioStep⟩

/-- The ratio is halved in block 10, and the parameters that are set in block 11 leave it there. -/
theorem run_backingRatio_halved :
    let halved := { Params.initial with backingRatio := percent 50 }
    let actions :=
      [.beginBlock 10, .endBlock fun _ => some (percent 50), .beginBlock 11, .setParams halved]
    let e := (fresh .initial .initial).run actions
    (fresh .initial .initial).RatioLeft actions ∧
      e.ratioTold Params.initial.backingRatio = ⟨percent 50, 10⟩ ∧
      e.backingRatio = ⟨percent 50, 10⟩ := by
  intro halved actions e
  have left : (fresh .initial .initial).RatioLeft actions :=
    ⟨trivial, trivial, trivial, fun _ => rfl, trivial⟩
  have told : e.ratioTold Params.initial.backingRatio = ⟨percent 50, 10⟩ := by decide +kernel
  obtain ⟨-, same, -⟩ := run_backingRatio .initial .initial actions
  exact ⟨left, told, (same left).trans told⟩

/-- Governance moves the ratio: parameters with half of it are accepted and stored, while the log
tells of no adjustment. -/
theorem setParams_movesRatio :
    let halved := { Params.initial with backingRatio := percent 50 }
    let e := (fresh .initial .initial).run [.setParams halved]
    halved.validate = .ok () ∧ e.events.lastAdjustment? = none ∧
      e.ratioTold Params.initial.backingRatio = ⟨1, 0⟩ ∧ e.backingRatio = ⟨percent 50, 0⟩ ∧
      e.backingRatio ≠ e.ratioTold Params.initial.backingRatio := by
  decide +kernel

end Engine

end Stablecoin
