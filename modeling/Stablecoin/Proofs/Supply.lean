import Stablecoin.Proofs.Steps

/-!
# Supply

The supply of stable units is what was issued from outside, the counter of units minted by swap, and
the principal of all debt, less the interest that liquidations cleared: that interest is burned with
the debt although no unit was issued when it accrued. The supply of the native token follows the
counter of tokens burned by swap, and no other supply changes but from outside.
-/
namespace Stablecoin

namespace Store

/-- All debt without the interest in it. -/
def principalDebt (s : Store) : Int :=
  s.positions.sum fun _ position =>
    (position.stableDebt.amount : Int) - position.interest.amount

/-- What the counters say the engine has issued of a denomination, less what it has burned. -/
def outstanding (s : Store) (denom : Denom) : Int :=
  (if stableDenom = denom then s.allBacking.stableMinted.amount + s.principalDebt else 0)
    - if nativeDenom = denom then s.allBacking.nativeBurned.amount else 0

theorem outstanding_new (params : Params) (denom : Denom) : (new params).outstanding denom = 0 := by
  simp [outstanding, principalDebt, allBacking, new, BackingTotal.empty, SignedCoin.zero]

variable {s after : Store}

theorem SameBooks.outstanding (books : s.SameBooks after) (denom : Denom) :
    after.outstanding denom = s.outstanding denom := by
  unfold Store.outstanding principalDebt
  rw [books.allBacking, books.positions]

theorem SwapBooked.outstanding {denom : Denom} {change : BackingChange}
    (booked : s.SwapBooked denom change after) (d : Denom) :
    after.outstanding d = s.outstanding d + (if stableDenom = d then change.stable else 0)
      - if nativeDenom = d then change.native else 0 := by
  unfold Store.outstanding principalDebt
  rw [booked.stableMinted, booked.nativeBurned, booked.positions]
  split <;> split <;> omega

theorem PositionBooked.outstanding {owner : Principal} {denom : Denom}
    {before records : PositionRecords} {change : PositionChange}
    (changed : before.Changed change records)
    (booked : s.PositionBooked owner denom before records change after) (d : Denom) :
    after.outstanding d
      = s.outstanding d + if stableDenom = d then change.debt - change.interest else 0 := by
  have debt := changed.debt
  have interest := changed.interest
  have same : after.allBacking = s.allBacking := by
    rw [allBacking, allBacking, booked.backingTotal]
  unfold Store.outstanding principalDebt
  rw [same, booked.positionSum _ fun _ _ _ => rfl]
  split <;> split <;> omega

end Store

namespace Engine

variable {e : Engine}

/-- A plan issues what it adds to the counters, less the interest that it clears. -/
theorem Effect.outstanding {cleared : Nat} {plan : Plan} (effect : e.Effect cleared plan)
    (keyed : e.store.Keyed) (denom : Denom) :
    batchIssue plan.moves denom
      = (e.store.update plan.update).outstanding denom - e.store.outstanding denom
        - if stableDenom = denom then (cleared : Int) else 0 := by
  cases effect with
  | swap d before after change fee loaded written changed kept issued uncleared =>
    rw [issued, written, (update_swapBooked keyed loaded changed).outstanding, uncleared]
    split <;> split <;> omega
  | position owner d mayOpen before after change fee loaded written changed _ kept issued =>
    rw [issued, written, (update_positionBooked keyed loaded changed).outstanding changed]
    split <;> omega

/-- Counters and supply move together, but for what comes from outside and for cleared interest. -/
theorem act_supply (sound : e.Sound) (action : Action) (denom : Denom) :
    ((e.act action).ledger.supply denom : Int) - (e.act action).store.outstanding denom
      = e.ledger.supply denom - e.store.outstanding denom + e.issuedBy action denom
        - if stableDenom = denom then (e.clearedBy action : Int) else 0 := by
  have step := act_step sound action
  generalize e.act action = after at step
  cases step with
  | still undisturbed issued cleared =>
    rw [undisturbed.ledger, undisturbed.books.outstanding, issued, cleared]
    split <;> omega
  | funded store moved _ issued =>
    rw [store, moved.supply sound.conserved, issued]
    simp [Coin.issue, clearedBy]
    omega
  | carriedOut effect store moved =>
    rw [store, moved.supply sound.conserved, effect.outstanding sound.keyed]
    simp only [issuedBy]
    omega

def issued (e : Engine) (actions : List Action) (denom : Denom) : Int :=
  e.tally (fun e action => e.issuedBy action denom) actions

/-- The interest that the liquidations of a run clear. -/
def cleared (e : Engine) (actions : List Action) : Int :=
  e.tally (fun e action => e.clearedBy action) actions

theorem run_supply_outstanding (sound : e.Sound) (actions : List Action) (denom : Denom) :
    ((e.run actions).ledger.supply denom : Int) - (e.run actions).store.outstanding denom
      = e.ledger.supply denom - e.store.outstanding denom + e.issued actions denom
        - if stableDenom = denom then e.cleared actions else 0 := by
  induction actions generalizing e with
  | nil =>
    simp [issued, cleared, tally]
  | cons action rest ih =>
    have step := act_supply sound action denom
    have later := ih (act_sound sound action)
    unfold issued cleared at later ⊢
    simp only [run_cons, tally]
    -- Cleared interest is missing from the stable units only.
    by_cases stable : stableDenom = denom
    · rw [if_pos stable] at step later ⊢
      omega
    · rw [if_neg stable] at step later ⊢
      omega

/-- After every run the supply of stable units is what came from outside, what the swap counter
says, and all debt without its interest, less the interest cleared by liquidations; the supply of
the native token is what came from outside less what the swap counter says was burned; and of
everything else there is what came from outside. -/
theorem run_supply (params : Params) (accounts : ModuleAccounts) (actions : List Action) :
    let start := fresh params accounts
    let e := start.run actions
    e.ledger.supply stableDenom
        = start.issued actions stableDenom + e.store.allBacking.stableMinted.amount
          + (e.store.positions.sum fun _ position =>
              (position.stableDebt.amount : Int) - position.interest.amount)
          - start.cleared actions ∧
      e.ledger.supply nativeDenom
        = start.issued actions nativeDenom - e.store.allBacking.nativeBurned.amount ∧
      ∀ denom, denom ≠ stableDenom → denom ≠ nativeDenom →
        e.ledger.supply denom = start.issued actions denom := by
  intro start e
  have other : stableDenom ≠ nativeDenom := by decide
  have all (denom : Denom) : (e.ledger.supply denom : Int)
      = e.store.outstanding denom + start.issued actions denom
        - if stableDenom = denom then start.cleared actions else 0 := by
    have run : (e.ledger.supply denom : Int) - e.store.outstanding denom
        = start.ledger.supply denom - start.store.outstanding denom + start.issued actions denom
          - if stableDenom = denom then start.cleared actions else 0 :=
      run_supply_outstanding (fresh_sound params accounts) actions denom
    have empty : start.ledger.supply denom = 0 := rfl
    have none : start.store.outstanding denom = 0 := Store.outstanding_new params denom
    rw [none, empty] at run
    omega
  refine ⟨?_, ?_, ?_⟩
  · rw [all, Store.outstanding, Store.principalDebt, if_pos rfl, if_neg other.symm, if_pos rfl]
    omega
  · rw [all, Store.outstanding, if_neg other, if_pos rfl, if_neg other]
    omega
  · intro denom stable native
    rw [all, Store.outstanding, if_neg stable.symm, if_neg native.symm, if_neg stable.symm]
    omega

/-- In a run with a loan, the interest that its liquidation clears is missing from the supply. -/
theorem run_supply_loanRun :
    "ether" ≠ stableDenom ∧ "ether" ≠ nativeDenom ∧
      (fresh .initial .initial).cleared loanRun = 16 ∧
      ((fresh .initial .initial).run loanRun).store.principalDebt = 476 ∧
      ((fresh .initial .initial).run loanRun).ledger.supply stableDenom = 1460 ∧
      ((fresh .initial .initial).run loanRun).ledger.supply "ether" = 1000 := by
  have stable : "ether" ≠ stableDenom := by decide
  have native : "ether" ≠ nativeDenom := by decide
  have cleared : (fresh .initial .initial).cleared loanRun = 16 := by decide +kernel
  have principal : ((fresh .initial .initial).run loanRun).store.principalDebt = 476 := by
    decide +kernel
  have counted : (fresh .initial .initial).issued loanRun stableDenom
      + ((fresh .initial .initial).run loanRun).store.allBacking.stableMinted.amount
      + ((fresh .initial .initial).run loanRun).store.principalDebt
      - (fresh .initial .initial).cleared loanRun = 1460 := by
    decide +kernel
  have ether : (fresh .initial .initial).issued loanRun "ether" = 1000 := by decide +kernel
  obtain ⟨supply, -, rest⟩ := run_supply .initial .initial loanRun
  have total := supply.trans counted
  have unchanged := (rest _ stable native).trans ether
  exact ⟨stable, native, cleared, principal, Int.ofNat.inj total, Int.ofNat.inj unchanged⟩

end Engine

end Stablecoin
