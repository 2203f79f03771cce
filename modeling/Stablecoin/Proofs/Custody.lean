import Stablecoin.Proofs.Steps

/-!
# Custody

The module account holds what the books say: the backing and the collateral of every denomination
and the native token locked with collateral. It holds nothing else unless fees are collected in it
or coins are issued to it from outside.
-/
namespace Stablecoin

namespace Store

/-- What the books say the module account holds of a denomination. -/
def custody (s : Store) (denom : Denom) : Int :=
  (s.backingPool denom).backing.amount + (s.collateralPool denom).collateral.amount
    + if denom = nativeDenom then
        s.collateralPools.sum fun _ pool => pool.nativeLocked.amount
      else 0

theorem custody_new (params : Params) (denom : Denom) : (new params).custody denom = 0 := by
  simp [custody, backingPool, collateralPool, new, BackingPool.empty, CollateralPool.empty,
    Coin.zero]

/-- The books hold no stable units: they are never a risk asset. -/
theorem Keyed.custody_stable {s : Store} (keyed : s.Keyed) : s.custody stableDenom = 0 := by
  have backing : s.backingPools.get? stableDenom = none := by
    cases found : s.backingPools.get? stableDenom with
    | none => rfl
    | some pool => exact absurd rfl (keyed.backingPool _ _ found).2.1
  have collateral : s.collateralPools.get? stableDenom = none := by
    cases found : s.collateralPools.get? stableDenom with
    | none => rfl
    | some pool => exact absurd rfl (keyed.collateralPool _ _ found).2.1
  have other : stableDenom ≠ nativeDenom := by decide
  rw [custody, Store.backingPool, backing, Store.collateralPool, collateral, if_neg other]
  rfl

variable {s after : Store}

theorem SameBooks.custody (books : s.SameBooks after) (denom : Denom) :
    after.custody denom = s.custody denom := by
  unfold Store.custody
  rw [books.backingPool, books.collateralPool, books.collateralSum _ fun _ => rfl]

theorem SwapBooked.custody {denom : Denom} {change : BackingChange}
    (booked : s.SwapBooked denom change after) (d : Denom) :
    after.custody d = s.custody d + if denom = d then change.backing else 0 := by
  unfold Store.custody
  rw [booked.backing, Store.collateralPool, Store.collateralPool, booked.collateralPools]
  omega

theorem PositionBooked.custody {owner : Principal} {denom : Denom}
    {before records : PositionRecords} {change : PositionChange}
    (changed : before.Changed change records)
    (booked : s.PositionBooked owner denom before records change after) (d : Denom) :
    after.custody d = s.custody d + (if denom = d then change.collateral else 0)
      + if nativeDenom = d then change.native else 0 := by
  have locked := changed.poolNative
  unfold Store.custody
  rw [booked.collateral, booked.poolSum, Store.backingPool, Store.backingPool, booked.backingPools]
  by_cases native : d = nativeDenom
  · -- Native token is held by the sum over all pools, whichever pool it is locked with.
    simp only [native, if_true]
    omega
  · simp only [native, Ne.symm native, if_false]
    omega

end Store

namespace Engine

variable {e : Engine}

/-- What the module account holds of a denomination beyond the books. -/
def unbooked (e : Engine) (denom : Denom) : Int := e.moduleBalance denom - e.store.custody denom

/-- A plan brings the module account what it adds to the books, and the fee if that stays there. -/
theorem Effect.unbooked {cleared : Nat} {plan : Plan} (effect : e.Effect cleared plan)
    (keyed : e.store.Keyed) :
    ∃ fee : Coin, ∀ denom,
      batchFlow plan.moves (.module e.accounts.module) denom
        = (e.store.update plan.update).custody denom - e.store.custody denom
          + if e.accounts.feeCollector = e.accounts.module then fee.inDenom denom else 0 := by
  cases effect with
  | swap denom before after change fee loaded written changed kept =>
    refine ⟨fee, ?_⟩
    intro d
    rw [kept, written, (update_swapBooked keyed loaded changed).custody]
    omega
  | position owner denom mayOpen before after change fee loaded written changed _ kept =>
    refine ⟨fee, ?_⟩
    intro d
    rw [kept, written, (update_positionBooked keyed loaded changed).custody changed]
    omega

/-- What an action issues to the module account from outside. -/
def creditedBy (e : Engine) (action : Action) (denom : Denom) : Int :=
  match action with
  | .fund account _ => if account = .module e.accounts.module then e.issuedBy action denom else 0
  | _ => 0

/-- What a run issues to the module account from outside. -/
def credited (e : Engine) (actions : List Action) (denom : Denom) : Int :=
  e.tally (fun e action => e.creditedBy action denom) actions

theorem creditedBy_of_issuedBy_eq_zero {action : Action} {denom : Denom}
    (issued : e.issuedBy action denom = 0) : e.creditedBy action denom = 0 := by
  cases action with
  | fund account coin =>
    simp only [creditedBy, issued]
    split <;> rfl
  | _ => rfl

theorem creditedBy_nonneg (e : Engine) (action : Action) (denom : Denom) :
    0 ≤ e.creditedBy action denom := by
  cases action with
  | fund account coin =>
    simp only [creditedBy, issuedBy]
    split
    · split
      · exact coin.inDenom_nonneg denom
      · exact Int.le_refl 0
    · exact Int.le_refl 0
  | _ => exact Int.le_refl 0

theorem credited_nonneg (e : Engine) (actions : List Action) (denom : Denom) :
    0 ≤ e.credited actions denom := by
  induction actions generalizing e with
  | nil => exact Int.le_refl 0
  | cons action rest ih => exact Int.add_nonneg (e.creditedBy_nonneg action denom) (ih _)

theorem credited_eq_zero (sound : e.Sound) {actions : List Action} (denom : Denom)
    (outside : ∀ coin, .fund (.module e.accounts.module) coin ∉ actions) :
    e.credited actions denom = 0 := by
  induction actions generalizing e with
  | nil => rfl
  | cons action rest ih =>
    have later : (e.act action).credited rest denom = 0 := by
      apply ih (act_sound sound action)
      intro coin member
      rw [(act_step sound action).accounts] at member
      exact outside coin (List.mem_cons_of_mem _ member)
    have now : e.creditedBy action denom = 0 := by
      cases action with
      | fund account coin =>
        have other : account ≠ .module e.accounts.module := by
          rintro rfl
          exact outside coin List.mem_cons_self
        exact if_neg other
      | _ => rfl
    change e.creditedBy action denom + (e.act action).credited rest denom = 0
    rw [now, later]
    rfl

/-- Only coins from outside and fees add to what is not in the books, and nothing takes from it. -/
theorem act_unbooked (sound : e.Sound) (action : Action) (denom : Denom) :
    ∃ fees : Int, 0 ≤ fees ∧ (e.accounts.feeCollector ≠ e.accounts.module → fees = 0) ∧
      (e.act action).unbooked denom = e.unbooked denom + e.creditedBy action denom + fees := by
  have step := act_step sound action
  unfold Engine.unbooked moduleBalance
  rw [step.accounts]
  generalize e.act action = after at step
  cases step with
  | still undisturbed issued =>
    refine ⟨0, Int.le_refl 0, fun _ => rfl, ?_⟩
    rw [undisturbed.ledger, undisturbed.books.custody,
      creditedBy_of_issuedBy_eq_zero (issued denom)]
    omega
  | @funded account coin _ store moved _ issued =>
    -- The books stay, so whatever reaches the module account is beyond them.
    refine ⟨0, Int.le_refl 0, fun _ => rfl, ?_⟩
    rw [store, moved.balance]
    simp only [Coin.flow, creditedBy, issued, Option.some.injEq, reduceCtorEq, if_false]
    split <;> omega
  | carriedOut effect store moved =>
    obtain ⟨fee, flow⟩ := effect.unbooked sound.keyed
    -- What the plan moves beyond the books is its fee, if the module account collects it.
    refine ⟨if e.accounts.feeCollector = e.accounts.module then fee.inDenom denom else 0,
      ?_, ?_, ?_⟩
    · split
      · exact fee.inDenom_nonneg denom
      · exact Int.le_refl 0
    · intro separate
      exact if_neg separate
    · rw [store, moved.balance, flow]
      simp only [creditedBy]
      omega

theorem run_unbooked (sound : e.Sound) (actions : List Action) (denom : Denom) :
    ∃ fees : Int, 0 ≤ fees ∧ (e.accounts.feeCollector ≠ e.accounts.module → fees = 0) ∧
      (e.run actions).unbooked denom = e.unbooked denom + e.credited actions denom + fees := by
  induction actions generalizing e with
  | nil => exact ⟨0, Int.le_refl 0, fun _ => rfl, by simp [credited, tally]⟩
  | cons action rest ih =>
    obtain ⟨fees, nonneg, none, now⟩ := act_unbooked sound action denom
    obtain ⟨fees', nonneg', none', later⟩ := ih (act_sound sound action)
    rw [(act_step sound action).accounts] at none'
    refine ⟨fees + fees', by omega, ?_, ?_⟩
    · intro separate
      rw [none separate, none' separate]
      rfl
    · unfold credited at later ⊢
      rw [run_cons, later, now, tally]
      omega

theorem fresh_unbooked (params : Params) (accounts : ModuleAccounts) (denom : Denom) :
    (fresh params accounts).unbooked denom = 0 := by
  change (0 : Int) - (Store.new params).custody denom = 0
  rw [Store.custody_new]
  rfl

/-- After every run the module account holds at least what the books say, for every denomination.
If fees are collected elsewhere it holds what the books say and what was issued to it from outside;
if nothing was, it holds exactly what the books say, and no stable units. -/
theorem run_custody (params : Params) (accounts : ModuleAccounts) (actions : List Action)
    (denom : Denom) :
    let start := fresh params accounts
    let e := start.run actions
    e.store.custody denom ≤ e.ledger.balance (.module accounts.module) denom ∧
      (accounts.feeCollector ≠ accounts.module →
        e.ledger.balance (.module accounts.module) denom
            = e.store.custody denom + start.credited actions denom ∧
          ((∀ coin, .fund (.module accounts.module) coin ∉ actions) →
            e.ledger.balance (.module accounts.module) denom = e.store.custody denom ∧
              e.ledger.balance (.module accounts.module) stableDenom = 0)) := by
  intro start e
  have sound : start.Sound := fresh_sound params accounts
  have same : e.accounts = accounts := run_accounts sound actions
  have held (d : Denom) : ∃ fees : Int, 0 ≤ fees ∧
      (accounts.feeCollector ≠ accounts.module → fees = 0) ∧
      (e.ledger.balance (.module accounts.module) d : Int)
        = e.store.custody d + start.credited actions d + fees := by
    obtain ⟨fees, nonneg, none, run⟩ := run_unbooked sound actions d
    have before : start.unbooked d = 0 := fresh_unbooked params accounts d
    have after : e.unbooked d
        = e.ledger.balance (.module accounts.module) d - e.store.custody d := by
      rw [unbooked, moduleBalance, same]
    have gained : e.unbooked d = start.unbooked d + start.credited actions d + fees := run
    exact ⟨fees, nonneg, none, by omega⟩
  obtain ⟨fees, nonneg, none, balance⟩ := held denom
  constructor
  · have issued := start.credited_nonneg actions denom
    omega
  · intro separate
    rw [none separate, Int.add_zero] at balance
    refine ⟨balance, ?_⟩
    intro outside
    -- The books hold no stable units, so what is held of them came from outside.
    have stable : e.store.custody stableDenom = 0 := (run_sound sound actions).keyed.custody_stable
    obtain ⟨fees', -, none', atStable⟩ := held stableDenom
    rw [stable, none' separate, credited_eq_zero sound stableDenom outside] at atStable
    rw [credited_eq_zero sound denom outside, Int.add_zero] at balance
    exact ⟨balance, Int.ofNat.inj atStable⟩

/-- After a loan and a liquidation the module account holds the ether that is left as collateral. -/
theorem run_custody_loanRun :
    let e := (fresh .initial .initial).run loanRun
    ModuleAccounts.initial.feeCollector ≠ ModuleAccounts.initial.module ∧
      (∀ coin, .fund (.module ModuleAccounts.initial.module) coin ∉ loanRun) ∧
      e.store.custody "ether" = 900 ∧
      e.ledger.balance (.module ModuleAccounts.initial.module) "ether" = 900 ∧
      e.ledger.balance (.module ModuleAccounts.initial.module) stableDenom = 0 := by
  intro e
  have separate : ModuleAccounts.initial.feeCollector ≠ ModuleAccounts.initial.module := by decide
  have outside (coin : Coin) :
      .fund (.module ModuleAccounts.initial.module) coin ∉ loanRun := by
    simp [loanRun]
  have booked : e.store.custody "ether" = 900 := by decide +kernel
  obtain ⟨held, stable⟩ :=
    ((run_custody .initial .initial loanRun "ether").2 separate).2 outside
  exact ⟨separate, outside, booked, Int.ofNat.inj (held.trans booked), stable⟩

end Engine

end Stablecoin
