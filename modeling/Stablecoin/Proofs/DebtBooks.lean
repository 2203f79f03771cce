import Stablecoin.Proofs.Steps

/-!
# The debt books

Collateral, debt and locked native token are kept for each position, for each pool and in total.
After every run each pool is the sum of its positions, the total is the sum of the pools, and no
position owes more interest than debt.
-/
namespace Stablecoin

namespace Store

/-- The sum of an amount over the positions in one collateral asset. -/
def positionSum (s : Store) (denom : Denom) (amount : Position → Nat) : Int :=
  s.positions.sum fun key position => if key.2 = denom then amount position else 0

/-- The three levels of the debt books agree. -/
structure BooksAgree (s : Store) : Prop where
  collateral : ∀ denom, ((s.collateralPool denom).collateral.amount : Int)
    = s.positionSum denom (·.collateral.amount)
  debt : ∀ denom, ((s.collateralPool denom).stableDebt.amount : Int)
    = s.positionSum denom (·.stableDebt.amount)
  native : ∀ denom, ((s.collateralPool denom).nativeLocked.amount : Int)
    = s.positionSum denom (·.nativeLocked.amount)
  allDebt : (s.allCollateral.stableDebt.amount : Int)
    = s.collateralPools.sum fun _ pool => pool.stableDebt.amount
  allNative : (s.allCollateral.nativeLocked.amount : Int)
    = s.collateralPools.sum fun _ pool => pool.nativeLocked.amount
  interest : ∀ owner denom position, s.positions.get? (owner, denom) = some position →
    position.interest.amount ≤ position.stableDebt.amount

theorem booksAgree_new (params : Params) : (new params).BooksAgree := by
  refine ⟨fun _ => rfl, fun _ => rfl, fun _ => rfl, rfl, rfl, ?_⟩
  intro owner denom position found
  cases found

variable {s after : Store}

theorem BooksAgree.sameBooks (agree : s.BooksAgree) (books : s.SameBooks after) :
    after.BooksAgree where
  collateral denom := by
    rw [books.collateralPool, agree.collateral, positionSum, positionSum, books.positions]
  debt denom := by
    rw [books.collateralPool, agree.debt, positionSum, positionSum, books.positions]
  native denom := by
    rw [books.collateralPool, agree.native, positionSum, positionSum, books.positions]
  allDebt := by rw [books.allCollateral, agree.allDebt, books.collateralSum _ fun _ => rfl]
  allNative := by rw [books.allCollateral, agree.allNative, books.collateralSum _ fun _ => rfl]
  interest := by simpa only [books.positions] using agree.interest

theorem SwapBooked.sameCollateral {denom : Denom} {change : BackingChange}
    (booked : s.SwapBooked denom change after) (agree : s.BooksAgree) : after.BooksAgree := by
  obtain ⟨-, -, -, pools, total, positions⟩ := booked
  constructor <;>
    simp only [collateralPool, allCollateral, positionSum, pools, total, positions]
  · exact agree.collateral
  · exact agree.debt
  · exact agree.native
  · exact agree.allDebt
  · exact agree.allNative
  · exact agree.interest

section Position

variable {owner : Principal} {denom : Denom} {before records : PositionRecords}
  {change : PositionChange}

theorem PositionBooked.positionSum_eq
    (booked : s.PositionBooked owner denom before records change after) {amount : Position → Nat}
    (vanishes : ∀ owner denom height, amount (.opened owner denom height) = 0) (d : Denom) :
    after.positionSum d amount = s.positionSum d amount
      + if denom = d then (amount records.position : Int) - amount before.position else 0 := by
  unfold Store.positionSum
  rw [booked.positionSum]
  · dsimp only
    split <;> omega
  · -- A position as it is opened counts for nothing.
    intro owner denom height
    simp [vanishes]

/-- A change that all three levels undergo keeps them in agreement. -/
theorem PositionBooked.booksAgree
    (booked : s.PositionBooked owner denom before records change after)
    (changed : before.Changed change records) (agree : s.BooksAgree)
    (interest : ∀ owner denom position, after.positions.get? (owner, denom) = some position →
      position.interest.amount ≤ position.stableDebt.amount) : after.BooksAgree where
  collateral d := by
    have moved := changed.collateral
    rw [booked.collateral, agree.collateral, booked.positionSum_eq fun _ _ _ => rfl]
    split <;> omega
  debt d := by
    have moved := changed.debt
    rw [booked.debt, agree.debt, booked.positionSum_eq fun _ _ _ => rfl]
    split <;> omega
  native d := by
    have moved := changed.native
    rw [booked.native, agree.native, booked.positionSum_eq fun _ _ _ => rfl]
    split <;> omega
  allDebt := by
    have moved := changed.poolDebt
    rw [booked.allDebt, agree.allDebt, booked.poolSum]
    omega
  allNative := by
    have moved := changed.poolNative
    rw [booked.allNative, agree.allNative, booked.poolSum]
    omega
  interest := interest

end Position

end Store

namespace Engine

variable {e : Engine}

/-- A position as it was loaded owes no more interest than debt. -/
theorem position_covered {owner : Principal} {denom : Denom} {mayOpen : Bool} {r : PositionRecords}
    (agree : e.store.BooksAgree) (loaded : e.position owner denom mayOpen = .ok r) :
    r.position.interest.amount ≤ r.position.stableDebt.amount := by
  obtain ⟨-, -, stored | ⟨-, -, opened⟩⟩ := position_ok loaded
  · exact agree.interest owner denom _ stored
  · rw [opened]
    exact Nat.le_refl _

theorem Effect.booksAgree {cleared : Nat} {plan : Plan} (effect : e.Effect cleared plan)
    (keyed : e.store.Keyed) (agree : e.store.BooksAgree) :
    (e.store.update plan.update).BooksAgree := by
  cases effect with
  | swap denom before after change fee loaded written changed =>
    rw [written]
    exact (update_swapBooked keyed loaded changed).sameCollateral agree
  | position owner denom mayOpen before after change fee loaded written changed covered =>
    rw [written]
    refine (update_positionBooked keyed loaded changed).booksAgree changed agree ?_
    intro other d position
    change (Table.insert _ _ _).get? _ = _ → _
    rw [Table.get?_insert]
    split
    next =>
      -- The position just written keeps its interest within its debt.
      rintro ⟨⟩
      exact covered (position_covered agree loaded)
    next => exact agree.interest other d position

theorem act_booksAgree (sound : e.Sound) (agree : e.store.BooksAgree) (action : Action) :
    (e.act action).store.BooksAgree := by
  have step := act_step sound action
  generalize e.act action = after at step
  cases step with
  | still undisturbed => exact agree.sameBooks undisturbed.books
  | funded store => rwa [store]
  | carriedOut effect store =>
    rw [store]
    exact effect.booksAgree sound.keyed agree

/-- After every run each pool of collateral is the sum of its positions, the totals are the sums of
the pools, and every position owes at most its debt in interest. -/
theorem run_booksAgree (params : Params) (accounts : ModuleAccounts) (actions : List Action) :
    ((fresh params accounts).run actions).store.BooksAgree := by
  have kept (e : Engine) (action : Action) (sound : e.Sound) (agree : e.store.BooksAgree) :
      (e.act action).store.BooksAgree := act_booksAgree sound agree action
  exact run_keeps (fun e => e.store.BooksAgree) kept (fresh_sound params accounts)
    (Store.booksAgree_new params) actions

end Engine

end Stablecoin
