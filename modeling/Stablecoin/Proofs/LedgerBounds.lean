import Stablecoin.Proofs.LedgerFlow

/-!
# What a ledger can hold

No supply leaves the range of amounts, and only what has the name of a denomination is ever held.
When such a ledger is conserved, whoever receives coins has room for them, so a transfer fails only
for want of coins.
-/
namespace Stablecoin.Ledger

/-- Supplies are in range, and what is held has the name of a denomination. -/
structure Valid (l : Ledger) : Prop where
  supply : ∀ denom, l.supply denom < amountBound
  named : ∀ account denom, l.balance account denom ≠ 0 → validDenom denom = true

theorem empty_valid : empty.Valid where
  supply _ := (by decide : 0 < amountBound)
  named _ _ held := absurd rfl held

theorem requireDenom_ok {denom : Denom} {result : Unit} :
    requireDenom denom = .ok result ↔ validDenom denom = true := by
  unfold requireDenom
  split
  next named => simp [named]
  next unnamed => simp [unnamed, throw, throwThe, MonadExceptOf.throw]

/-! ### Validity -/

theorem Valid.setBalance {l : Ledger} (valid : l.Valid) {denom : Denom}
    (named : validDenom denom = true) (account : Account) (amount : Nat) :
    (l.setBalance account denom amount).Valid where
  supply := valid.supply
  named other denom' held := by
    rw [balance_setBalance] at held
    split at held
    next same => rw [same.2, named]
    next => exact valid.named other denom' held

theorem Valid.setSupply {l : Ledger} (valid : l.Valid) {amount : Nat} (denom : Denom)
    (inRange : amount < amountBound) : (l.setSupply denom amount).Valid where
  supply denom' := by
    rw [supply_setSupply]
    split
    next => exact inRange
    next => exact valid.supply denom'
  named := valid.named

theorem Valid.credit {l after : Ledger} {account : Account} {coin : Coin} (valid : l.Valid)
    (given : l.credit account coin = .ok after) : after.Valid := by
  obtain rfl := credit_ok given
  simp only [Ledger.credit, bind_ok] at given
  obtain ⟨_, named, -⟩ := given
  exact valid.setBalance (requireDenom_ok.mp named) _ _

theorem Valid.debit {l after : Ledger} {account : Account} {coin : Coin} (valid : l.Valid)
    (taken : l.debit account coin = .ok after) : after.Valid := by
  obtain ⟨-, rfl⟩ := debit_ok taken
  simp only [Ledger.debit, bind_ok] at taken
  obtain ⟨_, named, -⟩ := taken
  exact valid.setBalance (requireDenom_ok.mp named) _ _

theorem Valid.raiseSupply {l after : Ledger} {coin : Coin} (valid : l.Valid)
    (raised : l.raiseSupply coin = .ok after) : after.Valid := by
  simp only [Ledger.raiseSupply, bind_ok] at raised
  obtain ⟨_, -, raised⟩ := raised
  split at raised
  next inRange =>
    cases pure_ok.mp raised
    exact valid.setSupply _ inRange
  next => cases raised

theorem Valid.lowerSupply {l : Ledger} (valid : l.Valid) (coin : Coin) :
    (l.lowerSupply coin).Valid := by
  unfold Ledger.lowerSupply
  split
  next supply found =>
    have current : l.supply coin.denom = supply := by simp [Ledger.supply, found]
    have inRange := valid.supply coin.denom
    exact valid.setSupply _ (by omega)
  next => exact valid

theorem Valid.transferCoin {l after : Ledger} {source target : Account} {coin : Coin}
    (valid : l.Valid) (moved : transferCoin source target l coin = .ok after) : after.Valid := by
  simp only [Ledger.transferCoin, bind_ok] at moved
  obtain ⟨_, taken, given⟩ := moved
  exact (valid.debit taken).credit given

theorem Valid.mintCoin {l after : Ledger} {module : String} {coin : Coin} (valid : l.Valid)
    (minted : mintCoin module l coin = .ok after) : after.Valid := by
  simp only [Ledger.mintCoin, bind_ok] at minted
  obtain ⟨_, raised, given⟩ := minted
  exact (valid.raiseSupply raised).credit given

theorem Valid.burnCoin {l after : Ledger} {module : String} {coin : Coin} (valid : l.Valid)
    (burned : burnCoin module l coin = .ok after) : after.Valid := by
  simp only [Ledger.burnCoin, bind_ok, pure_ok] at burned
  obtain ⟨_, taken, rfl⟩ := burned
  exact (valid.debit taken).lowerSupply coin

/-- What every step of a fold keeps, the fold keeps. -/
theorem foldlM_keeps {α : Type} {P : Ledger → Prop}
    {step : Ledger → α → Except LedgerError Ledger}
    (each : ∀ l x after, P l → step l x = .ok after → P after) {xs : List α}
    {before after : Ledger} (holds : P before) (returned : xs.foldlM step before = .ok after) :
    P after := by
  induction xs generalizing before with
  | nil =>
    cases pure_ok.mp returned
    exact holds
  | cons x rest ih =>
    rw [List.foldlM_cons, bind_ok] at returned
    obtain ⟨middle, first, later⟩ := returned
    exact ih (each _ _ _ holds first) later

theorem Valid.perform {l after : Ledger} {op : LedgerOp} (valid : l.Valid)
    (done : l.perform op = .ok after) : after.Valid := by
  cases op with
  | sendToModule => exact foldlM_keeps (fun _ _ _ => Valid.transferCoin) valid done
  | sendToUser => exact foldlM_keeps (fun _ _ _ => Valid.transferCoin) valid done
  | sendBetweenModules => exact foldlM_keeps (fun _ _ _ => Valid.transferCoin) valid done
  | mint => exact foldlM_keeps (fun _ _ _ => Valid.mintCoin) valid done
  | burn => exact foldlM_keeps (fun _ _ _ => Valid.burnCoin) valid done

theorem Valid.apply {l after : Ledger} {ops : List LedgerOp} (valid : l.Valid)
    (applied : l.apply ops = .ok after) : after.Valid :=
  foldlM_keeps (fun _ _ _ => Valid.perform) valid applied

theorem Valid.fund {l : Ledger} (valid : l.Valid) (account : Account) (coin : Coin) :
    (l.fund account coin).2.Valid := by
  unfold Ledger.fund
  split
  next => exact valid
  next raised counted =>
    split
    next => exact valid.raiseSupply counted
    next funded given => exact (valid.raiseSupply counted).credit given

/-! ### Transfers that succeed -/

variable {l : Ledger}

theorem debit_succeeds {account : Account} {coin : Coin} (named : validDenom coin.denom = true)
    (covered : coin.amount ≤ l.balance account coin.denom) :
    l.debit account coin
      = .ok (l.setBalance account coin.denom (l.balance account coin.denom - coin.amount)) := by
  simp only [debit, bind_ok]
  exact ⟨(), requireDenom_ok.mpr named, by rw [if_pos covered]; rfl⟩

/-- Whoever receives a coin has room for it, since nobody holds more than there is. -/
theorem transferCoin_succeeds (valid : l.Valid) (conserved : l.Conserved) {source : Account}
    (target : Account) {coin : Coin} (positive : 0 < coin.amount)
    (covered : coin.amount ≤ l.balance source coin.denom) :
    ∃ after, transferCoin source target l coin = .ok after := by
  have named : validDenom coin.denom = true := valid.named source coin.denom (by omega)
  let middle := l.setBalance source coin.denom (l.balance source coin.denom - coin.amount)
  have taken : l.debit source coin = .ok middle := debit_succeeds named covered
  have left : middle.total coin.denom = l.total coin.denom - coin.amount := by
    rw [total_setBalance, if_pos rfl]
    omega
  have room : middle.balance target coin.denom + coin.amount < amountBound := by
    have held := middle.balance_le_total target coin.denom
    have counted := conserved coin.denom
    have bounded := valid.supply coin.denom
    omega
  have given : middle.credit target coin
      = .ok (middle.setBalance target coin.denom
          (middle.balance target coin.denom + coin.amount)) := by
    simp only [credit, bind_ok]
    exact ⟨(), requireDenom_ok.mpr named, by rw [if_pos room]; rfl⟩
  exact ⟨_, by rw [transferCoin, taken]; exact given⟩

theorem transferCoins_succeed (valid : l.Valid) (conserved : l.Conserved) {source : Account}
    (target : Account) {coins : List Coin} (positive : ∀ coin ∈ coins, 0 < coin.amount)
    (covered : ∀ denom, amountIn coins denom ≤ l.balance source denom) :
    ∃ after, coins.foldlM (transferCoin source target) l = .ok after := by
  induction coins generalizing l with
  | nil => exact ⟨l, rfl⟩
  | cons coin rest ih =>
    have enough : coin.amount ≤ l.balance source coin.denom := by
      have all := covered coin.denom
      have later := amountIn_nonneg rest coin.denom
      rw [amountIn_cons, Coin.inDenom, if_pos rfl] at all
      omega
    obtain ⟨middle, moved⟩ :=
      transferCoin_succeeds valid conserved target (positive coin List.mem_cons_self) enough
    have shifted := transferCoin_shifted moved
    -- The source has lost no more than the first coin, and still covers the others.
    have covered' (denom : Denom) : amountIn rest denom ≤ middle.balance source denom := by
      have all := covered denom
      have left := shifted.balance source denom
      have amount := coin.inDenom_nonneg denom
      rw [Coin.flow, if_pos rfl] at left
      rw [amountIn_cons] at all
      split at left <;> omega
    obtain ⟨after, done⟩ := ih (valid.transferCoin moved) (shifted.conserved conserved)
      (fun other member => positive other (List.mem_cons_of_mem _ member)) covered'
    refine ⟨after, ?_⟩
    rw [List.foldlM_cons, moved]
    exact done

/-- A module pays a user whatever it holds, zero coins being left out. -/
theorem apply_sendToUser (valid : l.Valid) (conserved : l.Conserved) {module : String}
    (target : Principal) {coins : List Coin}
    (covered : ∀ denom, amountIn coins denom ≤ l.balance (.module module) denom) :
    ∃ after, l.apply (dropZeros [.sendToUser module target coins]) = .ok after := by
  cases kept : coins.filter Coin.isPositive with
  | nil => exact ⟨l, by simp [dropZeros, LedgerOp.dropZeros?, LedgerOp.coins, kept, apply]⟩
  | cons first rest =>
    have positive : ∀ coin ∈ first :: rest, 0 < coin.amount := by
      intro coin member
      rw [← kept] at member
      simpa [Coin.isPositive] using (List.mem_filter.mp member).2
    have covered' (denom : Denom) :
        amountIn (first :: rest) denom ≤ l.balance (.module module) denom := by
      rw [← kept, amountIn_filter_isPositive]
      exact covered denom
    obtain ⟨after, done⟩ :=
      transferCoins_succeed valid conserved (.user target) positive covered'
    refine ⟨after, ?_⟩
    simp only [dropZeros, LedgerOp.dropZeros?, LedgerOp.coins, kept, List.filterMap_cons,
      List.filterMap_nil, LedgerOp.withCoins, apply, List.foldlM_cons, List.foldlM_nil, bind_ok,
      pure_ok]
    exact ⟨after, done, rfl⟩

end Stablecoin.Ledger
