import Stablecoin.Proofs.LedgerHistory

/-!
# The order of batches

Two batches that a ledger accepts in both orders leave the same ledger. Balances and supplies add
up the same; what has to be shown beside that is that the same of them are listed, for a ledger also
lists what has come down to zero.
-/
namespace Stablecoin

/-- Tables with the same keys and the same values, by whatever default, are equal. -/
theorem Table.ext_getD {κ α : Type} [Ord κ] [Std.TransOrd κ] [Std.LawfulEqOrd κ] {t u : Table κ α}
    (default : α) (listed : ∀ key, (t.get? key).isSome ↔ (u.get? key).isSome)
    (same : ∀ key, (t.get? key).getD default = (u.get? key).getD default) : t = u := by
  refine Table.ext_get? fun key => ?_
  have keys := listed key
  have values := same key
  cases found : t.get? key <;> cases found' : u.get? key <;> simp_all

namespace LedgerOp

/-- A movement changes the balance of an account in a denomination, by nothing if its coins are
zero. -/
def Touches (op : LedgerOp) (account : Account) (denom : Denom) : Prop :=
  ∃ c ∈ op.coins, (op.source = some account ∨ op.target = some account) ∧ c.denom = denom

/-- A movement brings coins of a denomination into being. -/
def Mints (op : LedgerOp) (denom : Denom) : Prop :=
  ∃ c ∈ op.coins, op.source = none ∧ c.denom = denom

end LedgerOp

namespace Ledger

/-- How a ledger got from one state to another: which balances and which supplies it lists beyond
those that it listed before. -/
structure Listed (before : Ledger) (touched : Account → Denom → Prop) (minted : Denom → Prop)
    (after : Ledger) : Prop where
  balances : ∀ account denom, (after.balances.get? (account, denom)).isSome ↔
    (before.balances.get? (account, denom)).isSome ∨ touched account denom
  supplies : ∀ denom, (after.supplies.get? denom).isSome ↔
    (before.supplies.get? denom).isSome ∨ minted denom

namespace Listed

theorem refl (l : Ledger) : l.Listed (fun _ _ => False) (fun _ => False) l where
  balances := by simp
  supplies := by simp

theorem trans {first second third : Ledger} {touched touched' : Account → Denom → Prop}
    {minted minted' : Denom → Prop} (earlier : first.Listed touched minted second)
    (later : second.Listed touched' minted' third) :
    first.Listed (fun a d => touched a d ∨ touched' a d) (fun d => minted d ∨ minted' d) third where
  balances account denom := by rw [later.balances, earlier.balances, or_assoc]
  supplies denom := by rw [later.supplies, earlier.supplies, or_assoc]

theorem congr {before after : Ledger} {touched touched' : Account → Denom → Prop}
    {minted minted' : Denom → Prop} (listed : before.Listed touched minted after)
    (same : ∀ account denom, touched account denom ↔ touched' account denom)
    (same' : ∀ denom, minted denom ↔ minted' denom) : before.Listed touched' minted' after where
  balances account denom := by rw [listed.balances, same]
  supplies denom := by rw [listed.supplies, same']

/-- A fold lists what its steps list. -/
theorem foldlM {α : Type} {step : Ledger → α → Except LedgerError Ledger}
    {touched : α → Account → Denom → Prop} {minted : α → Denom → Prop}
    (each : ∀ l x after, step l x = .ok after → l.Listed (touched x) (minted x) after)
    {xs : List α} {before after : Ledger} (returned : xs.foldlM step before = .ok after) :
    before.Listed (fun a d => ∃ x ∈ xs, touched x a d) (fun d => ∃ x ∈ xs, minted x d) after := by
  induction xs generalizing before with
  | nil =>
    cases pure_ok.mp returned
    exact (refl _).congr (by simp) (by simp)
  | cons x rest ih =>
    rw [List.foldlM_cons, bind_ok] at returned
    obtain ⟨middle, first, later⟩ := returned
    exact ((each _ _ _ first).trans (ih later)).congr (by simp) (by simp)

end Listed

/-! ### Single coins -/

theorem setBalance_listed (l : Ledger) (account : Account) (denom : Denom) (amount : Nat) :
    l.Listed (fun a d => account = a ∧ denom = d) (fun _ => False)
      (l.setBalance account denom amount) where
  balances other denom' := by
    simp only [setBalance, Table.get?_insert, Prod.mk.injEq]
    by_cases same : other = account ∧ denom' = denom
    · obtain ⟨rfl, rfl⟩ := same
      simp
    · have other : ¬(account = other ∧ denom = denom') := fun h => same ⟨h.1.symm, h.2.symm⟩
      simp [same, other]
  supplies := by simp [setBalance]

theorem setSupply_listed (l : Ledger) (denom : Denom) (amount : Nat) :
    l.Listed (fun _ _ => False) (fun d => denom = d) (l.setSupply denom amount) where
  balances := by simp [setSupply]
  supplies other := by
    simp only [setSupply, Table.get?_insert]
    by_cases same : other = denom
    · simp [same]
    · simp [same, Ne.symm same]

/-- A supply is only lowered where it is listed already. -/
theorem lowerSupply_listed (l : Ledger) (coin : Coin) :
    l.Listed (fun _ _ => False) (fun _ => False) (l.lowerSupply coin) := by
  unfold lowerSupply
  split
  next supply found =>
    have lowered := l.setSupply_listed coin.denom (supply - coin.amount)
    refine ⟨lowered.balances, fun denom => ?_⟩
    rw [lowered.supplies, or_false, or_iff_left_iff_imp]
    rintro rfl
    rw [found, Option.isSome_some]
  next => exact .refl l

theorem transferCoin_listed {l after : Ledger} {source target : Account} {coin : Coin}
    (moved : transferCoin source target l coin = .ok after) :
    l.Listed (fun a d => (source = a ∨ target = a) ∧ coin.denom = d) (fun _ => False) after := by
  simp only [transferCoin, bind_ok] at moved
  obtain ⟨middle, taken, given⟩ := moved
  obtain ⟨-, rfl⟩ := debit_ok taken
  obtain rfl := credit_ok given
  exact ((setBalance_listed _ _ _ _).trans (setBalance_listed _ _ _ _)).congr
    (fun _ _ => or_and_right.symm) (by simp)

theorem mintCoin_listed {l after : Ledger} {module : String} {coin : Coin}
    (minted : mintCoin module l coin = .ok after) :
    l.Listed (fun a d => .module module = a ∧ coin.denom = d) (fun d => coin.denom = d) after := by
  simp only [mintCoin, bind_ok] at minted
  obtain ⟨raised, counted, given⟩ := minted
  obtain rfl := raiseSupply_ok counted
  obtain rfl := credit_ok given
  exact ((setSupply_listed _ _ _).trans (setBalance_listed _ _ _ _)).congr (by simp) (by simp)

theorem burnCoin_listed {l after : Ledger} {module : String} {coin : Coin}
    (burned : burnCoin module l coin = .ok after) :
    l.Listed (fun a d => .module module = a ∧ coin.denom = d) (fun _ => False) after := by
  simp only [burnCoin, bind_ok, pure_ok] at burned
  obtain ⟨middle, taken, rfl⟩ := burned
  obtain ⟨-, rfl⟩ := debit_ok taken
  exact ((setBalance_listed _ _ _ _).trans (lowerSupply_listed _ _)).congr (by simp) (by simp)

/-! ### Batches -/

theorem moveCoin_listed {l after : Ledger} {op : LedgerOp} {coin : Coin}
    (moved : op.moveCoin l coin = .ok after) :
    l.Listed (fun a d => (op.source = some a ∨ op.target = some a) ∧ coin.denom = d)
      (fun d => op.source = none ∧ coin.denom = d) after := by
  cases op with
  | sendToModule | sendToUser | sendBetweenModules =>
    exact (transferCoin_listed moved).congr (by simp [LedgerOp.source, LedgerOp.target])
      (by simp [LedgerOp.source])
  | mint =>
    exact (mintCoin_listed moved).congr (by simp [LedgerOp.source, LedgerOp.target])
      (by simp [LedgerOp.source])
  | burn =>
    exact (burnCoin_listed moved).congr (by simp [LedgerOp.source, LedgerOp.target])
      (by simp [LedgerOp.source])

theorem perform_listed {l after : Ledger} {op : LedgerOp} (done : l.perform op = .ok after) :
    l.Listed op.Touches op.Mints after := by
  rw [perform_eq] at done
  exact Listed.foldlM (fun _ _ _ moved => moveCoin_listed moved) done

/-- Which entries a batch adds does not depend on the ledger that it is given to. -/
theorem apply_listed {l after : Ledger} {ops : List LedgerOp} (applied : l.apply ops = .ok after) :
    l.Listed (fun a d => ∃ op ∈ ops, op.Touches a d) (fun d => ∃ op ∈ ops, op.Mints d) after :=
  Listed.foldlM (fun _ _ _ done => perform_listed done) applied

/-- Ledgers that were reached from the same ledger by the same changes and list the same entries are
the same. -/
theorem eq_of_shifted {l one other : Ledger} (conserved : l.Conserved)
    {flow : Account → Denom → Int} {issue : Denom → Int} {touched : Account → Denom → Prop}
    {minted : Denom → Prop} (shifted : l.Shifted flow issue one)
    (shifted' : l.Shifted flow issue other) (listed : l.Listed touched minted one)
    (listed' : l.Listed touched minted other) : one = other := by
  have balances : one.balances = other.balances := by
    refine Table.ext_getD 0 (fun (account, denom) => ?_) (fun (account, denom) => ?_)
    · rw [listed.balances, listed'.balances]
    · have moved := shifted.balance account denom
      rw [← shifted'.balance account denom] at moved
      exact Int.ofNat.inj moved
  have supplies : one.supplies = other.supplies := by
    refine Table.ext_getD 0 (fun denom => ?_) (fun denom => ?_)
    · rw [listed.supplies, listed'.supplies]
    · have issued := shifted.supply conserved denom
      rw [← shifted'.supply conserved denom] at issued
      exact Int.ofNat.inj issued
  cases one
  cases other
  simp_all

/-- Two batches that are accepted in both orders leave the same ledger. -/
theorem apply_comm {l once both other swapped : Ledger} (conserved : l.Conserved)
    {ops ops' : List LedgerOp} (first : l.apply ops = .ok once) (later : once.apply ops' = .ok both)
    (first' : l.apply ops' = .ok other) (later' : other.apply ops = .ok swapped) :
    both = swapped := by
  have shifted := (apply_shifted first).trans (apply_shifted later)
  have shifted' := (apply_shifted first').trans (apply_shifted later')
  have listed := (apply_listed first).trans (apply_listed later)
  have listed' := (apply_listed first').trans (apply_listed later')
  -- What is added does not depend on the order that it is added in.
  refine eq_of_shifted conserved shifted ?_ listed ?_
  · exact ⟨fun a d => by rw [shifted'.balance, Int.add_comm (batchFlow ops a d)],
      fun c d => by rw [shifted'.supply c, Int.add_comm (batchIssue ops d)], shifted'.conserved⟩
  · exact listed'.congr (fun _ _ => or_comm) (fun _ => or_comm)

end Ledger

end Stablecoin
