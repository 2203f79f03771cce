import Stablecoin.Proofs.Parties

/-!
# The log tells the books

Each recorded swap names one pool and says how its backing and its counters changed; each recorded
deposit, redemption and liquidation names one position and says what it gained or lost. Adding up
what the log says gives the books back, in every state of every run: no operation writes a record
without recording it, and none records what it did not write.
-/
namespace Stablecoin

/-- By how much the holdings of a position change, its debt left aside. -/
structure HoldingChange where
  collateral : Int
  native : Int := 0

namespace Event

/-- The pool that a recorded swap names, and what it says of it. What a mint pays out and its fee
were both minted, of a burn only what the fee leaves was burned, and the fees of the other two leave
the pool with the payout. -/
def swap? : Event → Option (Denom × BackingChange)
  | mintBySwap _ _ [backing, native] out fee => some (backing.denom,
      { backing := backing.amount, stable := out.amount + fee.amount, native := native.amount })
  | burnBySwap _ _ coinIn [backing, native] fee => some (backing.denom,
      { backing := -backing.amount
        stable := -(coinIn.amount - fee.amount)
        native := -native.amount })
  | buyBacking _ _ coinIn out fee => some (out.denom,
      { backing := -(out.amount + fee.amount), native := coinIn.amount })
  | sellBacking _ _ coinIn out fee => some (coinIn.denom,
      { backing := coinIn.amount, native := -(out.amount + fee.amount) })
  | _ => none

/-- The position that a recorded operation names, and what it says of its holdings. A deposit is for
its receiver, a redemption is out of the sender's position, and a liquidation takes payout and
commission from the debtor. -/
def holding? : Event → Option ((Principal × Denom) × HoldingChange)
  | depositCollateral _ receiver [collateral, native] => some ((receiver, collateral.denom),
      { collateral := collateral.amount, native := native.amount })
  | redeemCollateral sender _ [collateral, native] => some ((sender, collateral.denom),
      { collateral := -collateral.amount, native := -native.amount })
  | liquidateCollateral _ _ debtor _ out fee => some ((debtor, out.denom),
      { collateral := -(out.amount + fee.amount) })
  | _ => none

/-- What an event adds to one part of the pool of a denomination. -/
def poolCount (part : BackingChange → Int) (denom : Denom) (event : Event) : Int :=
  match event.swap? with
  | some (named, change) => if named = denom then part change else 0
  | none => 0

/-- What an event adds to one part of all pools together. -/
def allCount (part : BackingChange → Int) (event : Event) : Int :=
  match event.swap? with
  | some (_, change) => part change
  | none => 0

/-- What an event adds to one part of a user's position. -/
def positionCount (part : HoldingChange → Int) (owner : Principal) (denom : Denom)
    (event : Event) : Int :=
  match event.holding? with
  | some (named, change) => if named = (owner, denom) then part change else 0
  | none => 0

/-- An event that names neither a pool nor a position. -/
structure Silent (event : Event) : Prop where
  swap : event.swap? = none
  holding : event.holding? = none

/-- An event that tells a change of a pool, and of no position. -/
structure TellsSwap (event : Event) (denom : Denom) (change : BackingChange) : Prop where
  swap : event.swap? = some (denom, change)
  holding : event.holding? = none

/-- An event that tells a change of what a position holds, and of no other position or pool. -/
structure TellsHolding (event : Event) (owner : Principal) (denom : Denom)
    (change : PositionChange) : Prop where
  collateral : ∀ o d, event.positionCount (·.collateral) o d
    = if (owner, denom) = (o, d) then change.collateral else 0
  native : ∀ o d, event.positionCount (·.native) o d
    = if (owner, denom) = (o, d) then change.native else 0
  swap : event.swap? = none

variable {event : Event}

theorem poolCount_of_swap {named denom : Denom} {change : BackingChange}
    (told : event.swap? = some (named, change)) (part : BackingChange → Int) :
    event.poolCount part denom = if named = denom then part change else 0 := by
  simp [poolCount, told]

theorem allCount_of_swap {named : Denom} {change : BackingChange}
    (told : event.swap? = some (named, change)) (part : BackingChange → Int) :
    event.allCount part = part change := by
  simp [allCount, told]

theorem poolCount_eq_zero (told : event.swap? = none) (part : BackingChange → Int)
    (denom : Denom) : event.poolCount part denom = 0 := by
  simp [poolCount, told]

theorem allCount_eq_zero (told : event.swap? = none) (part : BackingChange → Int) :
    event.allCount part = 0 := by
  simp [allCount, told]

theorem positionCount_eq_zero (told : event.holding? = none) (part : HoldingChange → Int)
    (owner : Principal) (denom : Denom) : event.positionCount part owner denom = 0 := by
  simp [positionCount, told]

end Event

namespace EventLog

/-- What the events of a log count, one after the other. -/
def total (log : EventLog) (count : Event → Int) : Int :=
  log.foldl (fun sum event => sum + count event) 0

@[simp] theorem total_nil (count : Event → Int) : total [] count = 0 := rfl

@[simp] theorem total_record (log : EventLog) (event : Event) (count : Event → Int) :
    (log.record event).total count = log.total count + count event := by
  simp [total, record]

end EventLog

/-- The books are what a log tells of them: every part of every pool, both counters of the total,
which are the sums over the pools, and the holdings of every position. -/
structure Store.ToldBy (s : Store) (log : EventLog) : Prop where
  backing : ∀ denom, ((s.backingPool denom).backing.amount : Int)
    = log.total (·.poolCount (·.backing) denom)
  stable : ∀ denom, (s.backingPool denom).stableMinted.amount
    = log.total (·.poolCount (·.stable) denom)
  native : ∀ denom, (s.backingPool denom).nativeBurned.amount
    = log.total (·.poolCount (·.native) denom)
  allStable : s.allBacking.stableMinted.amount = log.total (·.allCount (·.stable))
  allNative : s.allBacking.nativeBurned.amount = log.total (·.allCount (·.native))
  stableSum : s.allBacking.stableMinted.amount
    = s.backingPools.sum fun _ pool => pool.stableMinted.amount
  nativeSum : s.allBacking.nativeBurned.amount
    = s.backingPools.sum fun _ pool => pool.nativeBurned.amount
  collateral : ∀ owner denom, ((s.position owner denom).collateral.amount : Int)
    = log.total (·.positionCount (·.collateral) owner denom)
  locked : ∀ owner denom, ((s.position owner denom).nativeLocked.amount : Int)
    = log.total (·.positionCount (·.native) owner denom)

namespace Store

/-! The records of a swap and those of a position are kept apart. -/

@[simp] theorem position_update_backing (s : Store) (records : BackingRecords) (owner : Principal)
    (denom : Denom) : (s.update (.backing records)).position owner denom = s.position owner denom :=
  rfl

@[simp] theorem backingPool_update_position (s : Store) (records : PositionRecords)
    (denom : Denom) : (s.update (.position records)).backingPool denom = s.backingPool denom := rfl

@[simp] theorem allBacking_update_position (s : Store) (records : PositionRecords) :
    (s.update (.position records)).allBacking = s.allBacking := rfl

end Store

namespace Engine

variable {e : Engine} {log : EventLog}

/-! ### Silence -/

/-- The books are left alone, and so is the log but for an event that names none of them. -/
structure Quiet (e after : Engine) : Prop where
  books : e.store.SameBooks after.store
  backingSum : ∀ f : Denom → BackingPool → Int, (∀ denom, f denom (.empty denom) = 0) →
    after.store.backingPools.sum f = e.store.backingPools.sum f
  events : after.events = e.events ∨ ∃ event, event.Silent ∧ after.events = e.events.record event

/-- What is not told did not happen. -/
theorem Quiet.toldBy {after : Engine} (quiet : e.Quiet after) (told : e.store.ToldBy e.events) :
    after.store.ToldBy after.events := by
  obtain ⟨books, backingSum, events⟩ := quiet
  have pools (part : BackingChange → Int) (denom : Denom) :
      after.events.total (·.poolCount part denom) = e.events.total (·.poolCount part denom) := by
    obtain same | ⟨event, silent, recorded⟩ := events
    · rw [same]
    · simp [recorded, Event.poolCount_eq_zero silent.swap]
  have all (part : BackingChange → Int) :
      after.events.total (·.allCount part) = e.events.total (·.allCount part) := by
    obtain same | ⟨event, silent, recorded⟩ := events
    · rw [same]
    · simp [recorded, Event.allCount_eq_zero silent.swap]
  have positions (part : HoldingChange → Int) (owner : Principal) (denom : Denom) :
      after.events.total (·.positionCount part owner denom)
        = e.events.total (·.positionCount part owner denom) := by
    obtain same | ⟨event, silent, recorded⟩ := events
    · rw [same]
    · simp [recorded, Event.positionCount_eq_zero silent.holding]
  have position (owner : Principal) (denom : Denom) :
      after.store.position owner denom = e.store.position owner denom := by
    rw [Store.position, Store.position, books.positions]
  exact
    { backing := fun denom => by rw [books.backingPool, pools, told.backing]
      stable := fun denom => by rw [books.backingPool, pools, told.stable]
      native := fun denom => by rw [books.backingPool, pools, told.native]
      allStable := by rw [books.allBacking, all, told.allStable]
      allNative := by rw [books.allBacking, all, told.allNative]
      stableSum := by rw [books.allBacking, backingSum _ fun _ => rfl, told.stableSum]
      nativeSum := by rw [books.allBacking, backingSum _ fun _ => rfl, told.nativeSum]
      collateral := fun owner denom => by rw [position, positions, told.collateral]
      locked := fun owner denom => by rw [position, positions, told.locked] }

theorem Quiet.of_undisturbed {after : Engine} (undisturbed : e.Undisturbed after)
    (backingPools : after.store.backingPools = e.store.backingPools)
    (events : after.events = e.events ∨
      ∃ event, event.Silent ∧ after.events = e.events.record event) : e.Quiet after where
  books := undisturbed.books
  backingSum f _ := by rw [backingPools]
  events := events

theorem setParams_quiet (params : Params) : e.Quiet (e.setParams params).engine := by
  apply Quiet.of_undisturbed (setParams_undisturbed params)
  · unfold setParams
    split <;> rfl
  · unfold setParams
    split
    next => exact .inl rfl
    next => exact .inr ⟨.setParams, ⟨rfl, rfl⟩, rfl⟩

theorem endBlock_quiet (adjust : RatioInput → Option Decimal) :
    e.Quiet (e.endBlock adjust).engine := by
  apply Quiet.of_undisturbed (endBlock_undisturbed adjust)
  · unfold endBlock
    dsimp only
    split
    next => rfl
    next => split <;> rfl
  · unfold endBlock
    dsimp only
    split
    next => exact .inl rfl
    next =>
      split
      next => exact .inl rfl
      next ratio _ _ => exact .inr ⟨.adjustBackingRatio ratio e.height, ⟨rfl, rfl⟩, rfl⟩

/-- A pool that is opened adds nothing to any sum. -/
theorem registerBacking_quiet (params : BackingParams) :
    e.Quiet (e.registerBacking params).engine where
  books := registerBacking_books params
  backingSum f vanishes := by
    unfold registerBacking
    split
    next => rfl
    next =>
      cases found : e.store.backingPools.get? params.denom with
      | some pool => rfl
      | none =>
        change (e.store.backingPools.insert params.denom (.empty params.denom)).sum f = _
        rw [Table.sum_insert, Table.countAt, found, vanishes]
        simp
  events := by
    unfold registerBacking
    split
    next => exact .inl rfl
    next => exact .inr ⟨.registerBacking params.denom params.enabled, ⟨rfl, rfl⟩, rfl⟩

theorem registerCollateral_quiet (params : CollateralParams) :
    e.Quiet (e.registerCollateral params).engine := by
  apply Quiet.of_undisturbed (registerCollateral_undisturbed params)
  · unfold registerCollateral
    split
    next => rfl
    next => cases e.store.collateralPools.get? params.denom <;> rfl
  · unfold registerCollateral
    split
    next => exact .inl rfl
    next => exact .inr ⟨.registerCollateral params.denom params.enabled, ⟨rfl, rfl⟩, rfl⟩

/-! ### What a plan records -/

/-- The event of a plan tells what the plan writes. -/
inductive Tells (e : Engine) (plan : Plan) : Prop where
  | swap (denom : Denom) (before after : BackingRecords) (change : BackingChange)
      (loaded : e.backing denom = .ok before) (written : plan.update = .backing after)
      (changed : before.Changed change after) (told : plan.event.TellsSwap denom change)
  | position (owner : Principal) (denom : Denom) (mayOpen : Bool) (before after : PositionRecords)
      (change : PositionChange) (loaded : e.position owner denom mayOpen = .ok before)
      (written : plan.update = .position after) (changed : before.Changed change after)
      (told : plan.event.TellsHolding owner denom change)

variable {sender : Principal} {request : Request} {plan : Plan}

theorem planMint_tells {r : MintRequest} (planned : e.planMint sender r = .ok plan) :
    e.Tells plan := by
  obtain ⟨-, q, before, after, quoted, -, loaded, changed, -, written, event, -⟩ :=
    planMint_ok planned
  exact .swap _ before after _ loaded written changed (by rw [event]; exact ⟨rfl, rfl⟩)

theorem planBurn_tells {r : BurnRequest} (planned : e.planBurn sender r = .ok plan) :
    e.Tells plan := by
  obtain ⟨-, q, before, after, quoted, -, -, -, loaded, changed, -, written, event, -⟩ :=
    planBurn_ok planned
  obtain ⟨-, -, _, _, _, _, _, _, _, _, -, -, -, -, -, -, -, -, -, -, rfl⟩ := burnQuote_ok quoted
  exact .swap _ before after _ loaded written changed (by rw [event]; exact ⟨rfl, rfl⟩)

theorem planBuyback_tells {r : BuybackRequest} (planned : e.planBuyback sender r = .ok plan) :
    e.Tells plan := by
  obtain ⟨q, before, after, quoted, -, loaded, changed, -, written, event, -⟩ :=
    planBuyback_ok planned
  obtain ⟨-, _, _, _, _, _, _, _, _, -, -, -, -, -, -, -, -, -, -, -, -, rfl⟩ :=
    buybackQuote_ok quoted
  exact .swap _ before after _ loaded written changed (by rw [event]; exact ⟨rfl, rfl⟩)

theorem planReback_tells {r : RebackRequest} (planned : e.planReback sender r = .ok plan) :
    e.Tells plan := by
  obtain ⟨-, q, before, after, quoted, -, loaded, changed, -, written, event, -⟩ :=
    planReback_ok planned
  exact .swap _ before after _ loaded written changed (by rw [event]; exact ⟨rfl, rfl⟩)

namespace Tells

variable {owner : Principal} {denom : Denom} {risk : CollateralParams} {mayOpen : Bool}
  {settled after : PositionRecords} {change : PositionChange}

/-- Only what an operation does beyond settling interest is told, and interest is neither collateral
nor native token. -/
theorem of_settled (named : e.store.Named) (known : e.collateralParams denom = .ok risk)
    (loaded : e.settledPosition owner risk mayOpen = .ok settled)
    (written : plan.update = .position after) (changed : settled.Changed change after)
    (told : plan.event.TellsHolding owner denom change) : e.Tells plan := by
  obtain ⟨before, found, interest, accrued⟩ := settledPosition_changed named known loaded
  apply Tells.position owner denom mayOpen before after _ found written (accrued.trans changed)
  constructor
  · simpa using told.collateral
  · simpa using told.native
  · exact told.swap

/-- What changes the debt alone need not be told. -/
theorem of_silent (named : e.store.Named) (known : e.collateralParams denom = .ok risk)
    (loaded : e.settledPosition owner risk mayOpen = .ok settled)
    (written : plan.update = .position after) (changed : settled.Changed change after)
    (collateral : change.collateral = 0) (native : change.native = 0)
    (silent : plan.event.Silent) : e.Tells plan := by
  apply of_settled named known loaded written changed
  constructor
  · simp [Event.positionCount_eq_zero silent.holding, collateral]
  · simp [Event.positionCount_eq_zero silent.holding, native]
  · exact silent.swap

end Tells

theorem planDeposit_tells {r : DepositRequest} (named : e.store.Named)
    (planned : e.planDeposit sender r = .ok plan) : e.Tells plan := by
  obtain ⟨after, computed, -, written, event, -⟩ := planDeposit_ok planned
  obtain ⟨-, risk, settled, known, loaded, deposited, -⟩ := afterDeposit_ok computed
  have changed := PositionRecords.deposit_changed deposited
  apply Tells.of_settled named known loaded written changed
  rw [event]
  constructor <;> intros <;> rfl

theorem planRedeem_tells {r : RedeemRequest} (named : e.store.Named)
    (planned : e.planRedeem sender r = .ok plan) : e.Tells plan := by
  obtain ⟨after, computed, -, written, event, -⟩ := planRedeem_ok planned
  obtain ⟨-, risk, settled, _, _, known, loaded, redeemed, -⟩ := afterRedeem_ok computed
  have changed := PositionRecords.redeem_changed redeemed
  apply Tells.of_settled named known loaded written changed
  rw [event]
  constructor <;> intros <;> rfl

theorem planBorrow_tells {r : BorrowRequest} (named : e.store.Named)
    (planned : e.planBorrow sender r = .ok plan) : e.Tells plan := by
  obtain ⟨_, after, computed, -, written, event, -⟩ := planBorrow_ok planned
  obtain ⟨-, risk, _, _, settled, _, known, -, -, loaded, -, borrowed, -⟩ := afterBorrow_ok computed
  have changed := PositionRecords.borrow_changed borrowed
  apply Tells.of_silent named known loaded written changed rfl rfl
  rw [event]
  exact ⟨rfl, rfl⟩

theorem planRepay_tells {r : RepayRequest} (named : e.store.Named)
    (planned : e.planRepay sender r = .ok plan) : e.Tells plan := by
  obtain ⟨_, after, computed, -, written, event, -⟩ := planRepay_ok planned
  obtain ⟨-, risk, settled, _, _, known, loaded, -, -, -, -, changed⟩ := afterRepay_ok computed
  apply Tells.of_silent named known loaded written changed rfl rfl
  rw [event]
  exact ⟨rfl, rfl⟩

theorem planLiquidate_tells {r : LiquidateRequest} (named : e.store.Named)
    (planned : e.planLiquidate sender r = .ok plan) : e.Tells plan := by
  obtain ⟨_, after, computed, -, written, event, -⟩ := planLiquidate_ok planned
  obtain ⟨-, risk, _, settled, _, _, commission, _, _, _, _, _, known, -, loaded, -, -, -, -, -, -,
    -, -, covered, -, -, rfl, changed⟩ := afterLiquidate_ok computed
  apply Tells.of_settled named known loaded written changed
  rw [event]
  constructor
  · -- Payout and commission together are the collateral that was asked for.
    intro o d
    change (if (r.debtor, r.collateral.denom) = (o, d)
      then -(((r.collateral.amount - commission : Nat) : Int) + commission) else 0) = _
    split
    · dsimp only; omega
    · rfl
  · intro o d
    rfl
  · rfl

/-- Every plan records what it writes. -/
theorem plan_tells (named : e.store.Named) (planned : e.plan sender request = .ok plan) :
    e.Tells plan := by
  cases request with
  | mint => exact planMint_tells planned
  | burn => exact planBurn_tells planned
  | buyback => exact planBuyback_tells planned
  | reback => exact planReback_tells planned
  | borrow => exact planBorrow_tells named planned
  | repay => exact planRepay_tells named planned
  | deposit => exact planDeposit_tells named planned
  | redeem => exact planRedeem_tells named planned
  | liquidate => exact planLiquidate_tells named planned

/-! ### What a transaction records -/

/-- A swap writes the pool under the name it was loaded by. -/
theorem update_backingPools {denom : Denom} {before after : BackingRecords}
    {change : BackingChange} (keyed : e.store.Keyed) (loaded : e.backing denom = .ok before)
    (changed : before.Changed change after) :
    (e.store.update (.backing after)).backingPools
      = e.store.backingPools.insert denom after.pool := by
  have name := changed.denom.trans (keyed.backingPool denom _ (backing_ok loaded).2).1
  rw [← name]
  rfl

theorem swap_toldBy {denom : Denom} {before after : BackingRecords} {change : BackingChange}
    {event : Event} (keyed : e.store.Keyed) (told : e.store.ToldBy log)
    (loaded : e.backing denom = .ok before) (changed : before.Changed change after)
    (recorded : event.TellsSwap denom change) :
    (e.store.update (.backing after)).ToldBy (log.record event) := by
  obtain ⟨swap, apart⟩ := recorded
  obtain ⟨total, stored⟩ := backing_ok loaded
  have pools := update_backingPools keyed loaded changed
  have current : e.store.backingPool denom = before.pool := by
    simp [Store.backingPool, stored]
  -- What is read off a pool changes at the name in the event and nowhere else.
  have part (read : BackingPool → Int) (of : BackingChange → Int)
      (moved : read after.pool = read before.pool + of change)
      (before : ∀ d, read (e.store.backingPool d) = log.total (·.poolCount of d)) (d : Denom) :
      read ((e.store.update (.backing after)).backingPool d)
        = (log.record event).total (·.poolCount of d) := by
    rw [EventLog.total_record, Event.poolCount_of_swap swap, ← before, Store.backingPool, pools,
      Table.get?_insert]
    by_cases same : denom = d
    · subst same
      simp [current, moved]
    · simp [same, Ne.symm same, Store.backingPool]
  have sum (read : BackingPool → Int) :
      (e.store.update (.backing after)).backingPools.sum (fun _ pool => read pool)
        = e.store.backingPools.sum (fun _ pool => read pool)
          + (read after.pool - read before.pool) := by
    rw [pools, Table.sum_insert, Table.countAt, stored, Option.elim_some]
    omega
  have allBefore : e.store.allBacking = before.total := by simp [Store.allBacking, total]
  have allAfter : (e.store.update (.backing after)).allBacking = after.total := rfl
  have allStable := told.allStable
  have allNative := told.allNative
  have stableSum := told.stableSum
  have nativeSum := told.nativeSum
  rw [allBefore] at allStable allNative stableSum nativeSum
  refine ⟨?_, ?_, ?_, ?_, ?_, ?_, ?_, ?_, ?_⟩
  · exact part (·.backing.amount) _ changed.backing told.backing
  · exact part (·.stableMinted.amount) _ changed.poolStable told.stable
  · exact part (·.nativeBurned.amount) _ changed.poolNative told.native
  · rw [EventLog.total_record, Event.allCount_of_swap swap, ← allStable]
    exact changed.totalStable
  · rw [EventLog.total_record, Event.allCount_of_swap swap, ← allNative]
    exact changed.totalNative
  · rw [allAfter, sum (·.stableMinted.amount), changed.totalStable, changed.poolStable]
    omega
  · rw [allAfter, sum (·.nativeBurned.amount), changed.totalNative, changed.poolNative]
    omega
  · simpa [Event.positionCount_eq_zero apart] using told.collateral
  · simpa [Event.positionCount_eq_zero apart] using told.locked

theorem position_toldBy {owner : Principal} {denom : Denom} {mayOpen : Bool}
    {before after : PositionRecords} {change : PositionChange} {event : Event}
    (keyed : e.store.Keyed) (told : e.store.ToldBy log)
    (loaded : e.position owner denom mayOpen = .ok before) (changed : before.Changed change after)
    (recorded : event.TellsHolding owner denom change) :
    (e.store.update (.position after)).ToldBy (log.record event) := by
  obtain ⟨collateral, native, apart⟩ := recorded
  obtain ⟨owned, of⟩ := position_owned keyed.named loaded
  have positions : (e.store.update (.position after)).positions
      = e.store.positions.insert (owner, denom) after.position := by
    rw [← changed.owner.trans owned, ← changed.denom.trans of]
    rfl
  have position (o : Principal) (d : Denom) :
      (e.store.update (.position after)).position o d
        = if (owner, denom) = (o, d) then after.position else e.store.position o d := by
    rw [Store.position, positions, Table.get?_insert]
    by_cases same : (o, d) = (owner, denom)
    · simp [same]
    · simp only [same, Ne.symm same, if_false]
      rfl
  -- A position that was opened for the occasion held as little as a missing one.
  have held : before.position.collateral.amount
        = (e.store.position owner denom).collateral.amount ∧
      before.position.nativeLocked.amount
        = (e.store.position owner denom).nativeLocked.amount := by
    obtain stored | ⟨opened, missing⟩ := position_amounts loaded
    · rw [stored]
      exact ⟨rfl, rfl⟩
    · rw [opened, missing]
      exact ⟨rfl, rfl⟩
  have moved := changed.collateral
  have locked := changed.native
  rw [held.1] at moved
  rw [held.2] at locked
  refine ⟨?_, ?_, ?_, ?_, ?_, told.stableSum, told.nativeSum, ?_, ?_⟩
  · simpa [Event.poolCount_eq_zero apart] using told.backing
  · simpa [Event.poolCount_eq_zero apart] using told.stable
  · simpa [Event.poolCount_eq_zero apart] using told.native
  · simpa [Event.allCount_eq_zero apart] using told.allStable
  · simpa [Event.allCount_eq_zero apart] using told.allNative
  · intro o d
    rw [EventLog.total_record, collateral, ← told.collateral, position]
    split
    next same => cases same; exact moved
    next => exact (Int.add_zero _).symm
  · intro o d
    rw [EventLog.total_record, native, ← told.locked, position]
    split
    next same => cases same; exact locked
    next => exact (Int.add_zero _).symm

/-! ### Runs -/

theorem act_toldBy (sound : e.Sound) (told : e.store.ToldBy e.events) (action : Action) :
    (e.act action).store.ToldBy (e.act action).events := by
  cases action with
  | setParams params => exact (setParams_quiet params).toldBy told
  | registerBacking params => exact (registerBacking_quiet params).toldBy told
  | registerCollateral params => exact (registerCollateral_quiet params).toldBy told
  | endBlock adjust => exact (endBlock_quiet adjust).toldBy told
  -- Time, prices and funds from outside are in neither the books nor the log.
  | beginBlock | setRate | removeRate | fund => exact told
  | transact sender request =>
    cases returned : (e.transact sender request).result with
    | error failure =>
      have same : e.act (.transact sender request) = e := transact_refused returned
      rwa [same]
    | ok response =>
      obtain ⟨plan, ledger, planned, -, -, carried⟩ := transact_ok returned
      have after : e.act (.transact sender request) = _ := carried
      rw [after]
      change (e.store.update plan.update).ToldBy (e.events.record plan.event)
      -- Whatever the request was, its event tells the one thing that is written.
      cases plan_tells sound.keyed.named planned with
      | swap denom before records change loaded written changed recorded =>
        rw [written]
        exact swap_toldBy sound.keyed told loaded changed recorded
      | position owner denom mayOpen before records change loaded written changed recorded =>
        rw [written]
        exact position_toldBy sound.keyed told loaded changed recorded

/-- A store without records is what an empty log tells of it. -/
theorem new_toldBy (params : Params) : (Store.new params).ToldBy [] := by
  constructor <;> intros <;> rfl

/-- After every run from an empty store, the log tells the books. -/
theorem run_toldByEvents (params : Params) (accounts : ModuleAccounts) (actions : List Action) :
    let e := (fresh params accounts).run actions
    e.store.ToldBy e.events := by
  have step (e : Engine) (action : Action) (sound : e.Sound) (told : e.store.ToldBy e.events) :
      (e.act action).store.ToldBy (e.act action).events := act_toldBy sound told action
  exact run_keeps (fun e => e.store.ToldBy e.events) step (fresh_sound params accounts)
    (new_toldBy params) actions

/-- Of the thousand ether that were deposited the liquidation took a hundred, commission included,
and the loan is not told. -/
example :
    let e := (fresh .initial .initial).run loanRun
    e.events.total (·.positionCount (·.collateral) ⟨[1], by decide⟩ "ether") = 900 ∧
      e.events.total (·.positionCount (·.native) ⟨[1], by decide⟩ "ether") = 40 := by
  decide +kernel

end Engine

end Stablecoin
