import Stablecoin.Engine.Governance
import Stablecoin.Proofs.PlanEffect

/-!
# The books as a whole

The records of a store read as books, in which what is missing counts as empty, and what
registering an asset or writing a plan's records does to them.
-/
namespace Stablecoin

namespace Store

/-- The pool of a backing asset, empty if there is none. -/
def backingPool (s : Store) (denom : Denom) : BackingPool :=
  (s.backingPools.get? denom).getD (.empty denom)

/-- The pool of a collateral asset, empty if there is none. -/
def collateralPool (s : Store) (denom : Denom) : CollateralPool :=
  (s.collateralPools.get? denom).getD (.empty denom)

/-- A user's position in a collateral asset, empty if there is none. -/
def position (s : Store) (owner : Principal) (denom : Denom) : Position :=
  (s.positions.get? (owner, denom)).getD (.opened owner denom 0)

def allBacking (s : Store) : BackingTotal := s.backingTotal.getD .empty

def allCollateral (s : Store) : CollateralTotal := s.collateralTotal.getD .empty

/-- A pool that exists goes on to exist. -/
theorem pool_setCollateralPool {s : Store} {denom : Denom} (pool : CollateralPool)
    (found : ∃ before, s.collateralPools.get? denom = some before) :
    ∃ after, (s.setCollateralPool pool).collateralPools.get? denom = some after := by
  simp only [Store.setCollateralPool, Table.get?_insert]
  split
  next => exact ⟨pool, rfl⟩
  next => exact found

/-- Two stores with the same books. Pools may have been opened, but nothing is in them. -/
structure SameBooks (s after : Store) : Prop where
  backingPool : ∀ denom, after.backingPool denom = s.backingPool denom
  collateralPool : ∀ denom, after.collateralPool denom = s.collateralPool denom
  allBacking : after.allBacking = s.allBacking
  allCollateral : after.allCollateral = s.allCollateral
  collateralSum : ∀ f : Denom → CollateralPool → Int, (∀ denom, f denom (.empty denom) = 0) →
    after.collateralPools.sum f = s.collateralPools.sum f
  positions : after.positions = s.positions

theorem SameBooks.refl (s : Store) : s.SameBooks s where
  backingPool _ := rfl
  collateralPool _ := rfl
  allBacking := rfl
  allCollateral := rfl
  collateralSum _ _ := rfl
  positions := rfl

structure SwapBooked (s : Store) (denom : Denom) (change : BackingChange) (after : Store) :
    Prop where
  backing : ∀ d, ((after.backingPool d).backing.amount : Int)
    = (s.backingPool d).backing.amount + if denom = d then change.backing else 0
  stableMinted : after.allBacking.stableMinted.amount
    = s.allBacking.stableMinted.amount + change.stable
  nativeBurned : after.allBacking.nativeBurned.amount
    = s.allBacking.nativeBurned.amount + change.native
  collateralPools : after.collateralPools = s.collateralPools
  collateralTotal : after.collateralTotal = s.collateralTotal
  positions : after.positions = s.positions

structure PositionBooked (s : Store) (owner : Principal) (denom : Denom)
    (before after : PositionRecords) (change : PositionChange) (updated : Store) : Prop where
  backingPools : updated.backingPools = s.backingPools
  backingTotal : updated.backingTotal = s.backingTotal
  collateral : ∀ d, ((updated.collateralPool d).collateral.amount : Int)
    = (s.collateralPool d).collateral.amount + if denom = d then change.collateral else 0
  debt : ∀ d, ((updated.collateralPool d).stableDebt.amount : Int)
    = (s.collateralPool d).stableDebt.amount + if denom = d then change.debt else 0
  native : ∀ d, ((updated.collateralPool d).nativeLocked.amount : Int)
    = (s.collateralPool d).nativeLocked.amount + if denom = d then change.native else 0
  allDebt : (updated.allCollateral.stableDebt.amount : Int)
    = s.allCollateral.stableDebt.amount + change.debt
  allNative : (updated.allCollateral.nativeLocked.amount : Int)
    = s.allCollateral.nativeLocked.amount + change.native
  poolSum : ∀ f : Denom → CollateralPool → Int,
    updated.collateralPools.sum f
      = s.collateralPools.sum f + (f denom after.pool - f denom before.pool)
  positionSum : ∀ f : Principal × Denom → Position → Int,
    (∀ owner denom height, f (owner, denom) (.opened owner denom height) = 0) →
    updated.positions.sum f
      = s.positions.sum f + (f (owner, denom) after.position - f (owner, denom) before.position)

end Store

namespace Engine

variable {e : Engine}

/-! ### Registering -/

theorem registerBacking_books (params : BackingParams) :
    e.store.SameBooks (e.registerBacking params).engine.store := by
  unfold registerBacking
  split
  next => exact .refl _
  next =>
    cases found : e.store.backingPools.get? params.denom with
    | some pool =>
      refine ⟨fun _ => rfl, fun _ => rfl, ?_, rfl, fun _ _ => rfl, rfl⟩
      cases e.store.backingTotal <;> rfl
    | none =>
      -- The pool that is opened reads as it did when it was missing.
      refine ⟨?_, fun _ => rfl, ?_, rfl, fun _ _ => rfl, rfl⟩
      · intro denom
        change
          ((e.store.backingPools.insert params.denom (.empty params.denom)).get? denom).getD _ = _
        rw [Table.get?_insert]
        split
        next same => rw [same, Store.backingPool, found]; rfl
        next => rfl
      · cases e.store.backingTotal <;> rfl

theorem registerCollateral_books (params : CollateralParams) :
    e.store.SameBooks (e.registerCollateral params).engine.store := by
  unfold registerCollateral
  split
  next => exact .refl _
  next =>
    cases found : e.store.collateralPools.get? params.denom with
    | some pool =>
      refine ⟨fun _ => rfl, fun _ => rfl, rfl, ?_, fun _ _ => rfl, rfl⟩
      cases e.store.collateralTotal <;> rfl
    | none =>
      refine ⟨fun _ => rfl, ?_, rfl, ?_, ?_, rfl⟩
      · intro denom
        change
          ((e.store.collateralPools.insert params.denom (.empty params.denom)).get? denom).getD _
            = _
        rw [Table.get?_insert]
        split
        next same => rw [same, Store.collateralPool, found]; rfl
        next => rfl
      · cases e.store.collateralTotal <;> rfl
      · intro f vanishes
        change (e.store.collateralPools.insert params.denom (.empty params.denom)).sum f = _
        rw [Table.sum_insert, Table.countAt, found, vanishes]
        simp

/-! ### Writing -/

theorem update_swapBooked {denom : Denom} {before after : BackingRecords} {change : BackingChange}
    (keyed : e.store.Keyed) (loaded : e.backing denom = .ok before)
    (changed : before.Changed change after) :
    e.store.SwapBooked denom change (e.store.update (.backing after)) := by
  obtain ⟨total, stored⟩ := backing_ok loaded
  have name := changed.denom.trans (keyed.backingPool denom _ stored).1
  refine ⟨?_, ?_, ?_, rfl, rfl, rfl⟩
  · intro d
    simp only [Store.backingPool, Store.update, Store.setBackingPool, name, Table.get?_insert]
    by_cases same : denom = d
    · subst same
      simp [stored, changed.backing]
    · simp [same, Ne.symm same]
  · simpa [Store.allBacking, Store.update, total] using changed.totalStable
  · simpa [Store.allBacking, Store.update, total] using changed.totalNative

/-- A loaded position carries the name it was asked for. -/
theorem position_named {owner : Principal} {denom : Denom} {mayOpen : Bool} {r : PositionRecords}
    (keyed : e.store.Keyed) (loaded : e.position owner denom mayOpen = .ok r) :
    r.position.owner = owner ∧ r.position.collateral.denom = denom ∧
      r.pool.collateral.denom = denom := by
  obtain ⟨-, pool, stored | ⟨-, -, opened⟩⟩ := position_ok loaded
  · obtain ⟨named, of⟩ := keyed.position owner denom _ stored
    exact ⟨named, of, (keyed.collateralPool denom _ pool).1⟩
  · rw [opened]
    exact ⟨rfl, rfl, (keyed.collateralPool denom _ pool).1⟩

theorem update_positionBooked {owner : Principal} {denom : Denom} {mayOpen : Bool}
    {before after : PositionRecords} {change : PositionChange} (keyed : e.store.Keyed)
    (loaded : e.position owner denom mayOpen = .ok before)
    (changed : before.Changed change after) :
    e.store.PositionBooked owner denom before after change
      (e.store.update (.position after)) := by
  obtain ⟨owned, named, pooled⟩ := position_named keyed loaded
  obtain ⟨total, pool, held⟩ := position_ok loaded
  -- The records are written back under the names that they were loaded by.
  have pools : (e.store.update (.position after)).collateralPools
      = e.store.collateralPools.insert denom after.pool := by
    rw [← changed.poolDenom.trans pooled]
    rfl
  have positions : (e.store.update (.position after)).positions
      = e.store.positions.insert (owner, denom) after.position := by
    rw [← changed.owner.trans owned, ← changed.denom.trans named]
    rfl
  have poolAt (d : Denom) : (e.store.update (.position after)).collateralPool d
      = if denom = d then after.pool else e.store.collateralPool d := by
    rw [Store.collateralPool, pools, Table.get?_insert]
    by_cases same : denom = d
    · simp [same]
    · simp [same, Ne.symm same, Store.collateralPool]
  have poolBefore : e.store.collateralPool denom = before.pool := by
    simp [Store.collateralPool, pool]
  refine ⟨rfl, rfl, ?_, ?_, ?_, ?_, ?_, ?_, ?_⟩
  · intro d
    rw [poolAt]
    split
    next same => rw [← same, poolBefore, changed.poolCollateral]
    next => simp
  · intro d
    rw [poolAt]
    split
    next same => rw [← same, poolBefore, changed.poolDebt]
    next => simp
  · intro d
    rw [poolAt]
    split
    next same => rw [← same, poolBefore, changed.poolNative]
    next => simp
  · simpa [Store.allCollateral, Store.update, Store.setPosition, Store.setCollateralPool, total]
      using changed.totalDebt
  · simpa [Store.allCollateral, Store.update, Store.setPosition, Store.setCollateralPool, total]
      using changed.totalNative
  · intro f
    rw [pools, Table.sum_insert, Table.countAt, pool, Option.elim_some]
    omega
  · intro f vanishes
    rw [positions, Table.sum_insert, Table.countAt]
    obtain stored | ⟨missing, -, opened⟩ := held
    · rw [stored, Option.elim_some]
      omega
    · -- A position that was missing counted for nothing, as an opened one does.
      rw [missing, Option.elim_none, opened, vanishes]
      omega

end Engine

end Stablecoin
