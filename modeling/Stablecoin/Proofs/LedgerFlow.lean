import Stablecoin.Ledger.Basic
import Stablecoin.Proofs.Result
import Stablecoin.Proofs.TableSum

/-!
# What a batch does to balances and supplies

Each movement of a batch has a source and a target, one of which is missing when coins come into
being or cease to be. A batch that the ledger accepts changes each balance by what reaches it less
what leaves it, and each supply by what is minted less what is burned.

The supply follows only while the ledger is conserved: lowering a supply stops at zero, and it is
the balances, which add up to the supply, that keep it from getting there.
-/
namespace Stablecoin

def Coin.inDenom (c : Coin) (denom : Denom) : Int := if c.denom = denom then c.amount else 0

theorem Coin.inDenom_nonneg (c : Coin) (denom : Denom) : 0 ≤ c.inDenom denom := by
  unfold inDenom
  split <;> omega

@[simp] theorem Coin.inDenom_zero (denom denom' : Denom) :
    (Coin.zero denom).inDenom denom' = 0 := by
  unfold inDenom
  split <;> rfl

/-- How much of a denomination some coins are together. -/
def amountIn (coins : List Coin) (denom : Denom) : Int :=
  coins.foldr (fun c total => c.inDenom denom + total) 0

@[simp, grind =] theorem amountIn_nil (denom : Denom) : amountIn [] denom = 0 := rfl

@[simp, grind =] theorem amountIn_cons (c : Coin) (rest : List Coin) (denom : Denom) :
    amountIn (c :: rest) denom = c.inDenom denom + amountIn rest denom := rfl

theorem amountIn_nonneg (coins : List Coin) (denom : Denom) : 0 ≤ amountIn coins denom := by
  induction coins with
  | nil => exact Int.le_refl 0
  | cons c rest ih => exact Int.add_nonneg (c.inDenom_nonneg denom) ih

/-- What a coin adds to a balance on its way from one place to another. -/
def Coin.flow (c : Coin) (source target : Option Account) (account : Account) (denom : Denom) :
    Int :=
  (if target = some account then c.inDenom denom else 0)
    - (if source = some account then c.inDenom denom else 0)

/-- What a coin adds to a supply on its way from one place to another. -/
def Coin.issue (c : Coin) (source target : Option Account) (denom : Denom) : Int :=
  (if source = none then c.inDenom denom else 0) - (if target = none then c.inDenom denom else 0)

private theorem sum_legs (coins : List Coin) (denom : Denom) (into outOf : Prop)
    [Decidable into] [Decidable outOf] :
    coins.foldr (fun c total =>
        (if into then c.inDenom denom else 0) - (if outOf then c.inDenom denom else 0) + total) 0
      = (if into then amountIn coins denom else 0)
        - (if outOf then amountIn coins denom else 0) := by
  induction coins with
  | nil => simp
  | cons c rest ih =>
    simp only [List.foldr_cons, ih, amountIn_cons]
    split <;> split <;> omega

namespace LedgerOp

/-- Where the coins come from, none if they are minted. -/
def source : LedgerOp → Option Account
  | sendToModule source _ _ => some (.user source)
  | sendToUser module _ _ => some (.module module)
  | sendBetweenModules source _ _ => some (.module source)
  | mint _ _ => none
  | burn module _ => some (.module module)

/-- Where the coins go, none if they are burned. -/
def target : LedgerOp → Option Account
  | sendToModule _ module _ => some (.module module)
  | sendToUser _ target _ => some (.user target)
  | sendBetweenModules _ target _ => some (.module target)
  | mint module _ => some (.module module)
  | burn _ _ => none

/-- What a movement adds to a balance, less what it takes from it. -/
def flow (op : LedgerOp) (account : Account) (denom : Denom) : Int :=
  (if op.target = some account then amountIn op.coins denom else 0)
    - (if op.source = some account then amountIn op.coins denom else 0)

/-- What a movement adds to a supply, less what it takes from it. -/
def issue (op : LedgerOp) (denom : Denom) : Int :=
  (if op.source = none then amountIn op.coins denom else 0)
    - (if op.target = none then amountIn op.coins denom else 0)

/-! What each movement does to a module's balance and to a supply. -/

@[simp, grind =] theorem flow_sendToModule (source : Principal) (module other : String)
    (coins : List Coin) (denom : Denom) :
    (sendToModule source module coins).flow (.module other) denom
      = if module = other then amountIn coins denom else 0 := by
  simp [flow, LedgerOp.source, LedgerOp.target, LedgerOp.coins]

@[simp, grind =] theorem flow_sendToUser (target : Principal) (module other : String)
    (coins : List Coin) (denom : Denom) :
    (sendToUser module target coins).flow (.module other) denom
      = -if module = other then amountIn coins denom else 0 := by
  simp [flow, LedgerOp.source, LedgerOp.target, LedgerOp.coins]

@[simp, grind =] theorem flow_sendBetweenModules (source target other : String) (coins : List Coin)
    (denom : Denom) :
    (sendBetweenModules source target coins).flow (.module other) denom
      = (if target = other then amountIn coins denom else 0)
        - if source = other then amountIn coins denom else 0 := by
  simp [flow, LedgerOp.source, LedgerOp.target, LedgerOp.coins]

@[simp, grind =] theorem flow_mint (module other : String) (coins : List Coin) (denom : Denom) :
    (mint module coins).flow (.module other) denom
      = if module = other then amountIn coins denom else 0 := by
  simp [flow, LedgerOp.source, LedgerOp.target, LedgerOp.coins]

@[simp, grind =] theorem flow_burn (module other : String) (coins : List Coin) (denom : Denom) :
    (burn module coins).flow (.module other) denom
      = -if module = other then amountIn coins denom else 0 := by
  simp [flow, LedgerOp.source, LedgerOp.target, LedgerOp.coins]

@[simp, grind =] theorem issue_sendToModule (source : Principal) (module : String)
    (coins : List Coin) (denom : Denom) : (sendToModule source module coins).issue denom = 0 := rfl

@[simp, grind =] theorem issue_sendToUser (target : Principal) (module : String) (coins : List Coin)
    (denom : Denom) : (sendToUser module target coins).issue denom = 0 := rfl

@[simp, grind =] theorem issue_sendBetweenModules (source target : String) (coins : List Coin)
    (denom : Denom) : (sendBetweenModules source target coins).issue denom = 0 := rfl

@[simp, grind =] theorem issue_mint (module : String) (coins : List Coin) (denom : Denom) :
    (mint module coins).issue denom = amountIn coins denom := by
  simp [issue, LedgerOp.source, LedgerOp.target, LedgerOp.coins]

@[simp, grind =] theorem issue_burn (module : String) (coins : List Coin) (denom : Denom) :
    (burn module coins).issue denom = -amountIn coins denom := by
  simp [issue, LedgerOp.source, LedgerOp.target, LedgerOp.coins]

end LedgerOp

/-- What a batch adds to a balance, less what it takes from it. -/
def batchFlow (ops : List LedgerOp) (account : Account) (denom : Denom) : Int :=
  ops.foldr (fun op total => op.flow account denom + total) 0

/-- What a batch adds to a supply, less what it takes from it. -/
def batchIssue (ops : List LedgerOp) (denom : Denom) : Int :=
  ops.foldr (fun op total => op.issue denom + total) 0

namespace Ledger

def total (l : Ledger) (denom : Denom) : Int :=
  l.balances.sum fun key amount => if key.2 = denom then amount else 0

/-- Every unit that exists is held by someone. -/
def Conserved (l : Ledger) : Prop := ∀ denom, (l.supply denom : Int) = l.total denom

/-! ### Single entries -/

theorem balance_setBalance (l : Ledger) (account other : Account) (denom denom' : Denom)
    (amount : Nat) :
    (l.setBalance account denom amount).balance other denom'
      = if other = account ∧ denom' = denom then amount else l.balance other denom' := by
  unfold balance setBalance
  rw [Table.get?_insert]
  by_cases same : other = account ∧ denom' = denom
  · simp [same]
  · simp only [Prod.mk.injEq, same, if_false]

theorem supply_setSupply (l : Ledger) (denom denom' : Denom) (amount : Nat) :
    (l.setSupply denom amount).supply denom'
      = if denom' = denom then amount else l.supply denom' := by
  unfold supply setSupply
  rw [Table.get?_insert]
  by_cases same : denom' = denom <;> simp [same]

private theorem countAt_balances (l : Ledger) (account : Account) (denom denom' : Denom) :
    l.balances.countAt (fun key amount => if key.2 = denom' then (amount : Int) else 0)
        (account, denom)
      = if denom = denom' then l.balance account denom else 0 := by
  unfold Table.countAt balance
  cases l.balances.get? (account, denom) with
  | none => simp
  | some amount => by_cases same : denom = denom' <;> simp [same]

theorem total_setBalance (l : Ledger) (account : Account) (denom denom' : Denom) (amount : Nat) :
    (l.setBalance account denom amount).total denom'
      = l.total denom'
        + if denom = denom' then (amount : Int) - l.balance account denom else 0 := by
  unfold total setBalance
  rw [Table.sum_insert, countAt_balances]
  dsimp only
  split <;> omega

/-- Nobody holds more than everybody. -/
theorem balance_le_total (l : Ledger) (account : Account) (denom : Denom) :
    l.balance account denom ≤ l.total denom := by
  have bounded := l.balances.countAt_le_sum
    (f := fun key amount => if key.2 = denom then (amount : Int) else 0)
    (fun _ _ => by split <;> omega) (account, denom)
  rwa [countAt_balances, if_pos rfl] at bounded

/-! ### Single coins -/

theorem debit_ok {l after : Ledger} {account : Account} {coin : Coin}
    (taken : l.debit account coin = .ok after) :
    coin.amount ≤ l.balance account coin.denom ∧
      l.setBalance account coin.denom (l.balance account coin.denom - coin.amount) = after := by
  simp only [debit, bind_ok] at taken
  obtain ⟨_, _, taken⟩ := taken
  split at taken
  next covered => exact ⟨covered, pure_ok.mp taken⟩
  next => cases taken

theorem credit_ok {l after : Ledger} {account : Account} {coin : Coin}
    (given : l.credit account coin = .ok after) :
    l.setBalance account coin.denom (l.balance account coin.denom + coin.amount) = after := by
  simp only [credit, bind_ok] at given
  obtain ⟨_, _, given⟩ := given
  split at given
  next => exact pure_ok.mp given
  next => cases given

theorem raiseSupply_ok {l after : Ledger} {coin : Coin} (raised : l.raiseSupply coin = .ok after) :
    l.setSupply coin.denom (l.supply coin.denom + coin.amount) = after := by
  simp only [raiseSupply, bind_ok] at raised
  obtain ⟨_, _, raised⟩ := raised
  split at raised
  next => exact pure_ok.mp raised
  next => cases raised

/-- How a ledger got from one state to another: by how much each balance and each supply changed.
Supplies are only followed from a conserved ledger. -/
structure Shifted (before : Ledger) (flow : Account → Denom → Int) (issue : Denom → Int)
    (after : Ledger) : Prop where
  balance : ∀ account denom,
    (after.balance account denom : Int) = before.balance account denom + flow account denom
  supply : before.Conserved →
    ∀ denom, (after.supply denom : Int) = before.supply denom + issue denom
  conserved : before.Conserved → after.Conserved

namespace Shifted

theorem refl (l : Ledger) : l.Shifted (fun _ _ => 0) (fun _ => 0) l where
  balance := by simp
  supply := by simp
  conserved := id

theorem trans {first second third : Ledger} {flow flow' : Account → Denom → Int}
    {issue issue' : Denom → Int} (earlier : first.Shifted flow issue second)
    (later : second.Shifted flow' issue' third) :
    first.Shifted (fun a d => flow a d + flow' a d) (fun d => issue d + issue' d) third where
  balance account denom := by
    rw [later.balance, earlier.balance, Int.add_assoc]
  supply conserved denom := by
    rw [later.supply (earlier.conserved conserved), earlier.supply conserved, Int.add_assoc]
  conserved := later.conserved ∘ earlier.conserved

/-- A fold whose steps shift the ledger shifts it by their sum. -/
theorem foldlM {α : Type} {step : Ledger → α → Except LedgerError Ledger}
    {flow : α → Account → Denom → Int} {issue : α → Denom → Int}
    (each : ∀ l x after, step l x = .ok after → l.Shifted (flow x) (issue x) after)
    {xs : List α} {before after : Ledger} (returned : xs.foldlM step before = .ok after) :
    before.Shifted (fun a d => xs.foldr (fun x total => flow x a d + total) 0)
      (fun d => xs.foldr (fun x total => issue x d + total) 0) after := by
  induction xs generalizing before with
  | nil =>
    cases pure_ok.mp returned
    exact refl _
  | cons x rest ih =>
    -- The fold went through a ledger in the middle, from which the rest went on.
    rw [List.foldlM_cons, bind_ok] at returned
    obtain ⟨middle, first, later⟩ := returned
    exact (each _ _ _ first).trans (ih later)

end Shifted

private theorem debit_shifts {l after : Ledger} {account : Account} {coin : Coin}
    (taken : l.debit account coin = .ok after) :
    (∀ other denom, (after.balance other denom : Int)
      = l.balance other denom - if account = other then coin.inDenom denom else 0) ∧
    (∀ denom, after.total denom = l.total denom - coin.inDenom denom) ∧
    after.supplies = l.supplies := by
  obtain ⟨covered, rfl⟩ := debit_ok taken
  refine ⟨?_, ?_, rfl⟩
  · intro other denom
    rw [balance_setBalance]
    unfold Coin.inDenom
    grind
  · intro denom
    rw [total_setBalance]
    unfold Coin.inDenom
    split <;> omega

private theorem credit_shifts {l after : Ledger} {account : Account} {coin : Coin}
    (given : l.credit account coin = .ok after) :
    (∀ other denom, (after.balance other denom : Int)
      = l.balance other denom + if account = other then coin.inDenom denom else 0) ∧
    (∀ denom, after.total denom = l.total denom + coin.inDenom denom) ∧
    after.supplies = l.supplies := by
  obtain rfl := credit_ok given
  refine ⟨?_, ?_, rfl⟩
  · intro other denom
    rw [balance_setBalance]
    unfold Coin.inDenom
    grind
  · intro denom
    rw [total_setBalance]
    unfold Coin.inDenom
    split <;> omega

private theorem raiseSupply_shifts {l after : Ledger} {coin : Coin}
    (raised : l.raiseSupply coin = .ok after) :
    after.balances = l.balances ∧
      ∀ denom, (after.supply denom : Int) = l.supply denom + coin.inDenom denom := by
  obtain rfl := raiseSupply_ok raised
  refine ⟨rfl, ?_⟩
  intro denom
  rw [supply_setSupply]
  unfold Coin.inDenom
  grind

private theorem lowerSupply_shifts {l : Ledger} {coin : Coin}
    (covered : coin.amount ≤ l.supply coin.denom) :
    (l.lowerSupply coin).balances = l.balances ∧
      ∀ denom, ((l.lowerSupply coin).supply denom : Int)
        = l.supply denom - coin.inDenom denom := by
  unfold lowerSupply
  split
  next supply found =>
    have current : l.supply coin.denom = supply := by simp [Ledger.supply, found]
    refine ⟨rfl, ?_⟩
    intro denom
    rw [supply_setSupply]
    unfold Coin.inDenom
    grind
  next absent =>
    -- Nothing is listed, so the coin is zero.
    have current : l.supply coin.denom = 0 := by simp [Ledger.supply, absent]
    refine ⟨rfl, ?_⟩
    intro denom
    unfold Coin.inDenom
    split <;> omega

theorem total_congr {l after : Ledger} (same : after.balances = l.balances) (denom : Denom) :
    after.total denom = l.total denom := by
  unfold total
  rw [same]

theorem balance_congr {l after : Ledger} (same : after.balances = l.balances)
    (account : Account) (denom : Denom) :
    after.balance account denom = l.balance account denom := by
  unfold balance
  rw [same]

theorem supply_congr {l after : Ledger} (same : after.supplies = l.supplies) (denom : Denom) :
    after.supply denom = l.supply denom := by
  unfold supply
  rw [same]

theorem transferCoin_shifted {l after : Ledger} {source target : Account} {coin : Coin}
    (moved : transferCoin source target l coin = .ok after) :
    l.Shifted (coin.flow (some source) (some target)) (coin.issue (some source) (some target))
      after := by
  simp only [transferCoin, bind_ok] at moved
  obtain ⟨middle, taken, given⟩ := moved
  obtain ⟨balance, total, supplies⟩ := debit_shifts taken
  obtain ⟨balance', total', supplies'⟩ := credit_shifts given
  have supply := supply_congr (supplies'.trans supplies)
  refine ⟨?_, ?_, ?_⟩
  · intro account denom
    rw [balance', balance]
    simp only [Coin.flow, Option.some.injEq]
    omega
  · intro _ denom
    simp [Coin.issue, supply]
  · -- What one account loses the other gains, so the total stays with the supply.
    intro conserved denom
    rw [supply, conserved denom, total', total]
    omega

/-- Coins that come into being are counted in the supply and in one balance. -/
theorem issued_shifted {l raised after : Ledger} {account : Account} {coin : Coin}
    (counted : l.raiseSupply coin = .ok raised) (given : raised.credit account coin = .ok after) :
    l.Shifted (coin.flow none (some account)) (coin.issue none (some account)) after := by
  obtain ⟨balances, supply⟩ := raiseSupply_shifts counted
  obtain ⟨balance', total', supplies'⟩ := credit_shifts given
  refine ⟨?_, ?_, ?_⟩
  · intro account denom
    rw [balance', balance_congr balances]
    simp [Coin.flow]
  · intro _ denom
    rw [supply_congr supplies', supply]
    simp [Coin.issue]
  · intro conserved denom
    rw [supply_congr supplies', supply, conserved denom, total', total_congr balances]

theorem mintCoin_shifted {l after : Ledger} {module : String} {coin : Coin}
    (minted : mintCoin module l coin = .ok after) :
    l.Shifted (coin.flow none (some (.module module))) (coin.issue none (some (.module module)))
      after := by
  simp only [mintCoin, bind_ok] at minted
  obtain ⟨raised, counted, given⟩ := minted
  exact issued_shifted counted given

theorem burnCoin_shifted {l after : Ledger} {module : String} {coin : Coin}
    (burned : burnCoin module l coin = .ok after) :
    l.Shifted (coin.flow (some (.module module)) none) (coin.issue (some (.module module)) none)
      after := by
  simp only [burnCoin, bind_ok, pure_ok] at burned
  obtain ⟨middle, taken, rfl⟩ := burned
  obtain ⟨balance, total, supplies⟩ := debit_shifts taken
  -- The supply covers the coin because the module's balance does.
  have covered (conserved : l.Conserved) : coin.amount ≤ middle.supply coin.denom := by
    have held := (debit_ok taken).1
    have bounded := l.balance_le_total (.module module) coin.denom
    have known := conserved coin.denom
    rw [supply_congr supplies]
    omega
  have balances : (middle.lowerSupply coin).balances = middle.balances := by
    unfold lowerSupply
    split <;> rfl
  refine ⟨?_, ?_, ?_⟩
  · intro account denom
    rw [balance_congr balances, balance]
    simp [Coin.flow]
    omega
  · intro conserved denom
    rw [(lowerSupply_shifts (covered conserved)).2, supply_congr supplies]
    simp [Coin.issue]
    omega
  · intro conserved denom
    rw [(lowerSupply_shifts (covered conserved)).2, supply_congr supplies, conserved denom,
      total_congr balances, total]

private theorem legs_shifted {step : Ledger → Coin → Except LedgerError Ledger}
    {source target : Option Account}
    (each : ∀ l c after, step l c = .ok after →
      l.Shifted (c.flow source target) (c.issue source target) after)
    {coins : List Coin} {before after : Ledger} (returned : coins.foldlM step before = .ok after) :
    before.Shifted
      (fun account denom =>
        (if target = some account then amountIn coins denom else 0)
          - (if source = some account then amountIn coins denom else 0))
      (fun denom =>
        (if source = none then amountIn coins denom else 0)
          - (if target = none then amountIn coins denom else 0)) after := by
  have shifted := Shifted.foldlM each returned
  simpa only [Coin.flow, Coin.issue, sum_legs] using shifted

theorem perform_shifted {l after : Ledger} {op : LedgerOp} (done : l.perform op = .ok after) :
    l.Shifted op.flow op.issue after := by
  cases op with
  | sendToModule => exact legs_shifted (fun _ _ _ => transferCoin_shifted) done
  | sendToUser => exact legs_shifted (fun _ _ _ => transferCoin_shifted) done
  | sendBetweenModules => exact legs_shifted (fun _ _ _ => transferCoin_shifted) done
  | mint => exact legs_shifted (fun _ _ _ => mintCoin_shifted) done
  | burn => exact legs_shifted (fun _ _ _ => burnCoin_shifted) done

/-- A batch that the ledger accepts moves what its movements say. -/
theorem apply_shifted {l after : Ledger} {ops : List LedgerOp} (applied : l.apply ops = .ok after) :
    l.Shifted (batchFlow ops) (batchIssue ops) after := by
  have each (l after : Ledger) (op : LedgerOp) (done : l.perform op = .ok after) :
      l.Shifted op.flow op.issue after := perform_shifted done
  exact Shifted.foldlM (fun l op after => each l after op) applied

/-! ### Coins from outside -/

theorem fund_ok {l : Ledger} {account : Account} {coin : Coin}
    (funded : (l.fund account coin).1 = .ok ()) :
    l.Shifted (coin.flow none (some account)) (coin.issue none (some account))
      (l.fund account coin).2 := by
  unfold fund at funded ⊢
  split at funded
  next => cases funded
  next raised counted =>
    split at funded
    next => cases funded
    next after given =>
      exact issued_shifted counted given

/-- A conserved ledger that refuses a coin stays as it was: a balance has room for every coin that
the supply has room for. -/
theorem fund_refused {l : Ledger} {account : Account} {coin : Coin} {error : LedgerError}
    (conserved : l.Conserved) (refused : (l.fund account coin).1 = .error error) :
    (l.fund account coin).2 = l := by
  unfold fund at refused ⊢
  split at refused
  next => rfl
  next raised counted =>
    split at refused
    next cause full =>
      -- The supply had room for the coin, and no balance exceeds its supply.
      exfalso
      have held := l.balance_le_total account coin.denom
      have known := conserved coin.denom
      have balance := balance_congr (raiseSupply_shifts counted).1 account coin.denom
      simp only [raiseSupply, bind_ok] at counted
      obtain ⟨_, valid, counted⟩ := counted
      split at counted
      next room =>
        have fits : raised.balance account coin.denom + coin.amount < amountBound := by omega
        rw [credit, valid] at full
        simp [bind, Except.bind, pure, Except.pure, fits] at full
      next => cases counted
    next => cases refused

/-! ### Dropping zero coins -/

theorem amountIn_filter_isPositive (coins : List Coin) (denom : Denom) :
    amountIn (coins.filter Coin.isPositive) denom = amountIn coins denom := by
  induction coins with
  | nil => rfl
  | cons c rest ih =>
    by_cases positive : c.isPositive
    · simp [positive, ih]
    · -- A coin that is dropped counts for nothing.
      have zero : c.amount = 0 := by simpa [Coin.isPositive] using positive
      simp [positive, ih, Coin.inDenom, zero]

end Ledger

namespace LedgerOp

@[simp] theorem source_withCoins (op : LedgerOp) (coins : List Coin) :
    (op.withCoins coins).source = op.source := by cases op <;> rfl

@[simp] theorem target_withCoins (op : LedgerOp) (coins : List Coin) :
    (op.withCoins coins).target = op.target := by cases op <;> rfl

@[simp] theorem coins_withCoins (op : LedgerOp) (coins : List Coin) :
    (op.withCoins coins).coins = coins := by cases op <;> rfl

/-- What is left of a movement moves the same amounts; nothing is left only if it moved none. -/
theorem dropZeros?_cases (op : LedgerOp) :
    (op.dropZeros? = none ∧ ∀ denom, amountIn op.coins denom = 0) ∨
    ∃ coins, op.dropZeros? = some (op.withCoins coins) ∧
      ∀ denom, amountIn coins denom = amountIn op.coins denom := by
  unfold dropZeros?
  split
  next empty =>
    refine .inl ⟨rfl, ?_⟩
    intro denom
    rw [← Ledger.amountIn_filter_isPositive, empty, amountIn_nil]
  next => exact .inr ⟨_, rfl, Ledger.amountIn_filter_isPositive op.coins⟩

end LedgerOp

@[simp, grind =] theorem batchFlow_nil (account : Account) (denom : Denom) :
    batchFlow [] account denom = 0 := rfl

@[simp, grind =] theorem batchFlow_cons (op : LedgerOp) (rest : List LedgerOp) (account : Account)
    (denom : Denom) :
    batchFlow (op :: rest) account denom
      = op.flow account denom + batchFlow rest account denom := rfl

@[simp, grind =] theorem batchIssue_nil (denom : Denom) : batchIssue [] denom = 0 := rfl

@[simp, grind =] theorem batchIssue_cons (op : LedgerOp) (rest : List LedgerOp) (denom : Denom) :
    batchIssue (op :: rest) denom = op.issue denom + batchIssue rest denom := rfl

theorem batchFlow_dropZeros (ops : List LedgerOp) (account : Account) (denom : Denom) :
    batchFlow (dropZeros ops) account denom = batchFlow ops account denom := by
  induction ops with
  | nil => rfl
  | cons op rest ih =>
    unfold dropZeros at ih ⊢
    rcases op.dropZeros?_cases with ⟨gone, none⟩ | ⟨coins, left, same⟩
    · simp [gone, ih, LedgerOp.flow, none]
    · simp [left, ih, LedgerOp.flow, same]

theorem batchIssue_dropZeros (ops : List LedgerOp) (denom : Denom) :
    batchIssue (dropZeros ops) denom = batchIssue ops denom := by
  induction ops with
  | nil => rfl
  | cons op rest ih =>
    unfold dropZeros at ih ⊢
    rcases op.dropZeros?_cases with ⟨gone, none⟩ | ⟨coins, left, same⟩
    · simp [gone, ih, LedgerOp.issue, none]
    · simp [left, ih, LedgerOp.issue, same]

end Stablecoin
