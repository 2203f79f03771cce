import Stablecoin.Proofs.ModuleFunds

/-!
# Zero coins move nothing

A batch is applied without its zero coins and the movements that are left empty. Nobody can tell
from what the ledger holds or answers: a zero coin in a valid denomination can always be moved, and
moving it at most lists a balance or a supply of zero. So a batch and what is left of it are carried
out side by side on ledgers that hold the same, and the first failure of one is that of the other.
-/
namespace Stablecoin.Ledger

/-- Every balance and every supply is an amount. -/
structure InRange (l : Ledger) : Prop where
  balance : ∀ account denom, l.balance account denom < amountBound
  supply : ∀ denom, l.supply denom < amountBound

/-- Two ledgers hold the same, whatever zeros they list. -/
structure Agrees (l m : Ledger) : Prop where
  balance : ∀ account denom, l.balance account denom = m.balance account denom
  supply : ∀ denom, l.supply denom = m.supply denom

/-- The same failure, or ledgers that hold the same. -/
inductive SameOutcome : Except LedgerError Ledger → Except LedgerError Ledger → Prop where
  | failed (error : LedgerError) : SameOutcome (.error error) (.error error)
  | done {l m : Ledger} (agrees : l.Agrees m) : SameOutcome (.ok l) (.ok m)

variable {l m after : Ledger} {account : Account} {coin : Coin}

/-! ### Ranges -/

namespace InRange

theorem empty : Ledger.empty.InRange where
  balance _ _ := (by decide : 0 < amountBound)
  supply _ := (by decide : 0 < amountBound)

theorem setBalance {denom : Denom} {amount : Nat} (inRange : l.InRange) (account : Account)
    (small : amount < amountBound) : (l.setBalance account denom amount).InRange where
  balance other denom' := by
    rw [balance_setBalance]
    split
    next => exact small
    next => exact inRange.balance other denom'
  supply := inRange.supply

theorem setSupply {denom : Denom} {amount : Nat} (inRange : l.InRange)
    (small : amount < amountBound) : (l.setSupply denom amount).InRange where
  balance := inRange.balance
  supply denom' := by
    rw [supply_setSupply]
    split
    next => exact small
    next => exact inRange.supply denom'

theorem debit (inRange : l.InRange) (taken : l.debit account coin = .ok after) :
    after.InRange := by
  obtain ⟨-, rfl⟩ := debit_ok taken
  exact inRange.setBalance account (Nat.sub_lt_of_lt (inRange.balance account coin.denom))

theorem credit (inRange : l.InRange) (given : l.credit account coin = .ok after) :
    after.InRange := by
  simp only [Ledger.credit, bind_ok] at given
  obtain ⟨_, -, given⟩ := given
  split at given
  next small =>
    cases pure_ok.mp given
    exact inRange.setBalance account small
  next => cases given

theorem raiseSupply (inRange : l.InRange) (raised : l.raiseSupply coin = .ok after) :
    after.InRange := by
  simp only [Ledger.raiseSupply, bind_ok] at raised
  obtain ⟨_, -, raised⟩ := raised
  split at raised
  next small =>
    cases pure_ok.mp raised
    exact inRange.setSupply small
  next => cases raised

theorem lowerSupply (inRange : l.InRange) (coin : Coin) : (l.lowerSupply coin).InRange := by
  unfold Ledger.lowerSupply
  split
  next supply found =>
    have current : l.supply coin.denom = supply := by simp [Ledger.supply, found]
    have small := inRange.supply coin.denom
    exact inRange.setSupply (by omega)
  next => exact inRange

theorem transferCoin {source target : Account} (inRange : l.InRange)
    (moved : transferCoin source target l coin = .ok after) : after.InRange := by
  simp only [Ledger.transferCoin, bind_ok] at moved
  obtain ⟨_, taken, given⟩ := moved
  exact (inRange.debit taken).credit given

/-- Whatever moves a coin keeps balances and supplies in range. -/
theorem moveCoin {op : LedgerOp} (inRange : l.InRange) (moved : op.moveCoin l coin = .ok after) :
    after.InRange := by
  cases op with
  | sendToModule => exact inRange.transferCoin moved
  | sendToUser => exact inRange.transferCoin moved
  | sendBetweenModules => exact inRange.transferCoin moved
  | mint =>
    simp only [LedgerOp.moveCoin, mintCoin, bind_ok] at moved
    obtain ⟨_, raised, given⟩ := moved
    exact (inRange.raiseSupply raised).credit given
  | burn =>
    simp only [LedgerOp.moveCoin, burnCoin, bind_ok, pure_ok] at moved
    obtain ⟨_, taken, rfl⟩ := moved
    exact (inRange.debit taken).lowerSupply coin

theorem moveCoins {op : LedgerOp} {coins : List Coin} (inRange : l.InRange)
    (moved : coins.foldlM op.moveCoin l = .ok after) : after.InRange :=
  foldlM_keeps (fun _ _ _ => InRange.moveCoin) inRange moved

end InRange

/-! ### Ledgers that hold the same -/

namespace Agrees

theorem refl (l : Ledger) : l.Agrees l := ⟨fun _ _ => rfl, fun _ => rfl⟩

theorem trans {n : Ledger} (first : l.Agrees m) (second : m.Agrees n) : l.Agrees n where
  balance account denom := (first.balance account denom).trans (second.balance account denom)
  supply denom := (first.supply denom).trans (second.supply denom)

theorem setBalance (agrees : l.Agrees m) (account : Account) (denom : Denom) (amount : Nat) :
    (l.setBalance account denom amount).Agrees (m.setBalance account denom amount) where
  balance other denom' := by rw [balance_setBalance, balance_setBalance, agrees.balance]
  supply := agrees.supply

theorem setSupply (agrees : l.Agrees m) (denom : Denom) (amount : Nat) :
    (l.setSupply denom amount).Agrees (m.setSupply denom amount) where
  balance := agrees.balance
  supply denom' := by rw [supply_setSupply, supply_setSupply, agrees.supply]

theorem symm (agrees : l.Agrees m) : m.Agrees l where
  balance account denom := (agrees.balance account denom).symm
  supply denom := (agrees.supply denom).symm

/-- Writing down what is held already changes nothing that is held. -/
theorem setBalance_self (l : Ledger) (account : Account) (denom : Denom) :
    l.Agrees (l.setBalance account denom (l.balance account denom)) where
  balance other denom' := by
    rw [balance_setBalance]
    split
    next same => rw [same.1, same.2]
    next => rfl
  supply _ := rfl

theorem setSupply_self (l : Ledger) (denom : Denom) :
    l.Agrees (l.setSupply denom (l.supply denom)) where
  balance _ _ := rfl
  supply denom' := by
    rw [supply_setSupply]
    split
    next same => rw [same]
    next => rfl

/-- A supply that is not listed is zero already. -/
theorem lowerSupply_left (l : Ledger) (coin : Coin) :
    (l.lowerSupply coin).Agrees (l.setSupply coin.denom (l.supply coin.denom - coin.amount)) := by
  unfold Ledger.lowerSupply
  split
  next supply found =>
    have current : l.supply coin.denom = supply := by simp [Ledger.supply, found]
    rw [current]
    exact refl _
  next missing =>
    have none : l.supply coin.denom - coin.amount = l.supply coin.denom := by
      simp [Ledger.supply, missing]
    rw [none]
    exact setSupply_self l coin.denom

theorem lowerSupply (agrees : l.Agrees m) (coin : Coin) :
    (l.lowerSupply coin).Agrees (m.lowerSupply coin) := by
  refine (lowerSupply_left l coin).trans ?_
  rw [agrees.supply]
  exact (agrees.setSupply _ _).trans (lowerSupply_left m coin).symm

end Agrees

/-! ### Running side by side -/

namespace SameOutcome

/-- Steps that go on alike from ledgers that hold the same have the same outcome. -/
theorem bind {first first' : Except LedgerError Ledger}
    {next next' : Ledger → Except LedgerError Ledger} (same : SameOutcome first first')
    (later : ∀ l m, first' = .ok m → l.Agrees m → SameOutcome (next l) (next' m)) :
    SameOutcome (first >>= next) (first' >>= next') := by
  cases same with
  | failed error => exact .failed error
  | done agrees => exact later _ _ rfl agrees

theorem debit (agrees : l.Agrees m) (account : Account) (coin : Coin) :
    SameOutcome (l.debit account coin) (m.debit account coin) := by
  unfold Ledger.debit
  rw [agrees.balance]
  cases requireDenom coin.denom with
  | error error => exact .failed error
  | ok =>
    dsimp only [ok_bind]
    split
    next => exact .done (agrees.setBalance _ _ _)
    next => exact .failed _

theorem credit (agrees : l.Agrees m) (account : Account) (coin : Coin) :
    SameOutcome (l.credit account coin) (m.credit account coin) := by
  unfold Ledger.credit
  rw [agrees.balance]
  cases requireDenom coin.denom with
  | error error => exact .failed error
  | ok =>
    dsimp only [ok_bind]
    split
    next => exact .done (agrees.setBalance _ _ _)
    next => exact .failed _

theorem raiseSupply (agrees : l.Agrees m) (coin : Coin) :
    SameOutcome (l.raiseSupply coin) (m.raiseSupply coin) := by
  unfold Ledger.raiseSupply
  rw [agrees.supply]
  cases requireDenom coin.denom with
  | error error => exact .failed error
  | ok =>
    dsimp only [ok_bind]
    split
    next => exact .done (agrees.setSupply _ _)
    next => exact .failed _

theorem transferCoin (agrees : l.Agrees m) (source target : Account) (coin : Coin) :
    SameOutcome (transferCoin source target l coin) (transferCoin source target m coin) :=
  (debit agrees source coin).bind fun _ _ _ agrees => credit agrees target coin

/-- A coin is moved alike in ledgers that hold the same. -/
theorem moveCoin (agrees : l.Agrees m) (op : LedgerOp) (coin : Coin) :
    SameOutcome (op.moveCoin l coin) (op.moveCoin m coin) := by
  cases op with
  | sendToModule => exact transferCoin agrees _ _ coin
  | sendToUser => exact transferCoin agrees _ _ coin
  | sendBetweenModules => exact transferCoin agrees _ _ coin
  | mint => exact (raiseSupply agrees coin).bind fun _ _ _ agrees => credit agrees _ coin
  | burn => exact (debit agrees _ coin).bind fun _ _ _ agrees => .done (agrees.lowerSupply coin)

end SameOutcome

/-! ### Moving a zero coin -/

section ZeroCoin

variable (named : validDenom coin.denom = true) (zero : coin.amount = 0)
include named zero

theorem debit_zero (l : Ledger) (account : Account) :
    ∃ after, l.debit account coin = .ok after ∧ l.Agrees after := by
  refine ⟨_, debit_succeeds named (zero.trans_le (Nat.zero_le _)), ?_⟩
  rw [zero, Nat.sub_zero]
  exact .setBalance_self l account coin.denom

theorem credit_zero (inRange : l.InRange) (account : Account) :
    ∃ after, l.credit account coin = .ok after ∧ l.Agrees after := by
  have valid : requireDenom coin.denom = .ok () := requireDenom_ok.mpr named
  have small := inRange.balance account coin.denom
  refine ⟨_, ?_, .setBalance_self l account coin.denom⟩
  rw [credit, valid, ok_bind, zero, Nat.add_zero, if_pos small]
  rfl

theorem raiseSupply_zero (inRange : l.InRange) :
    ∃ after, l.raiseSupply coin = .ok after ∧ l.Agrees after := by
  have valid : requireDenom coin.denom = .ok () := requireDenom_ok.mpr named
  have small := inRange.supply coin.denom
  refine ⟨_, ?_, .setSupply_self l coin.denom⟩
  rw [raiseSupply, valid, ok_bind, zero, Nat.add_zero, if_pos small]
  rfl

omit named in
theorem lowerSupply_zero (l : Ledger) : l.Agrees (l.lowerSupply coin) := by
  refine Agrees.trans ?_ (Agrees.lowerSupply_left l coin).symm
  rw [zero, Nat.sub_zero]
  exact .setSupply_self l coin.denom

theorem transferCoin_zero (inRange : l.InRange) (source target : Account) :
    ∃ after, transferCoin source target l coin = .ok after ∧ l.Agrees after := by
  obtain ⟨middle, taken, agrees⟩ := debit_zero named zero l source
  obtain ⟨after, given, agrees'⟩ := credit_zero named zero (inRange.debit taken) target
  exact ⟨after, bind_ok.mpr ⟨middle, taken, given⟩, agrees.trans agrees'⟩

/-- A zero coin can be moved, and no amount changes. -/
theorem moveCoin_zero (inRange : l.InRange) (op : LedgerOp) :
    ∃ after, op.moveCoin l coin = .ok after ∧ l.Agrees after := by
  cases op with
  | sendToModule => exact transferCoin_zero named zero inRange _ _
  | sendToUser => exact transferCoin_zero named zero inRange _ _
  | sendBetweenModules => exact transferCoin_zero named zero inRange _ _
  | mint module =>
    obtain ⟨middle, raised, agrees⟩ := raiseSupply_zero named zero inRange
    obtain ⟨after, given, agrees'⟩ :=
      credit_zero named zero (inRange.raiseSupply raised) (.module module)
    exact ⟨after, bind_ok.mpr ⟨middle, raised, given⟩, agrees.trans agrees'⟩
  | burn module =>
    obtain ⟨middle, taken, agrees⟩ := debit_zero named zero l (.module module)
    exact ⟨_, bind_ok.mpr ⟨middle, taken, rfl⟩,
      agrees.trans (lowerSupply_zero zero middle)⟩

end ZeroCoin

/-! ### Batches -/

theorem moveCoins_filter (agrees : l.Agrees m) (inRange : m.InRange) (op : LedgerOp)
    {coins : List Coin} (named : ∀ coin ∈ coins, validDenom coin.denom = true) :
    SameOutcome ((coins.filter Coin.isPositive).foldlM op.moveCoin l)
      (coins.foldlM op.moveCoin m) := by
  induction coins generalizing l m with
  | nil => exact .done agrees
  | cons coin rest ih =>
    have named' := fun other member => named other (List.mem_cons_of_mem coin member)
    by_cases positive : coin.isPositive
    · rw [List.filter_cons_of_pos positive]
      refine (SameOutcome.moveCoin agrees op coin).bind fun _ _ moved agrees' => ?_
      exact ih agrees' (inRange.moveCoin moved) named'
    · -- Only the run with all coins makes a step here, and it arrives at the same amounts.
      have zero : coin.amount = 0 := by simpa [Coin.isPositive] using positive
      obtain ⟨after, moved, agrees'⟩ :=
        moveCoin_zero (named coin List.mem_cons_self) zero inRange op
      rw [List.filter_cons_of_neg positive, List.foldlM_cons, moved, ok_bind]
      exact ih (agrees.trans agrees') (inRange.moveCoin moved) named'

/-- Carries out what is left of an operation without its zero coins. -/
def performLeft (l : Ledger) (op : LedgerOp) : Except LedgerError Ledger :=
  op.dropZeros?.elim (.ok l) l.perform

theorem performLeft_eq (l : Ledger) (op : LedgerOp) :
    l.performLeft op = (op.coins.filter Coin.isPositive).foldlM op.moveCoin l := by
  unfold performLeft LedgerOp.dropZeros?
  split
  next empty => rw [empty]; rfl
  next => exact perform_withCoins l op _

theorem apply_dropZeros_cons (l : Ledger) (op : LedgerOp) (rest : List LedgerOp) :
    l.apply (dropZeros (op :: rest))
      = l.performLeft op >>= fun after => after.apply (dropZeros rest) := by
  unfold performLeft dropZeros
  cases kept : op.dropZeros? with
  | none => rw [List.filterMap_cons_none kept]; rfl
  | some left => rw [List.filterMap_cons_some kept]; rfl

/-- A batch without zero coins has the outcome of the whole batch. -/
theorem apply_dropZeros (agrees : l.Agrees m) (inRange : m.InRange) {ops : List LedgerOp}
    (named : ∀ op ∈ ops, ∀ coin ∈ op.coins, validDenom coin.denom = true) :
    SameOutcome (l.apply (dropZeros ops)) (m.apply ops) := by
  induction ops generalizing l m with
  | nil => exact .done agrees
  | cons op rest ih =>
    have same := moveCoins_filter agrees inRange op (named op List.mem_cons_self)
    rw [apply_dropZeros_cons, performLeft_eq, apply, List.foldlM_cons, perform_eq]
    refine same.bind fun _ _ moved agrees' => ?_
    exact ih agrees' (inRange.moveCoins moved)
      fun other member => named other (List.mem_cons_of_mem op member)

/-- What is left of a batch has neither movements without coins nor zero coins. -/
theorem mem_dropZeros_coins {ops : List LedgerOp} {op : LedgerOp} (member : op ∈ dropZeros ops) :
    op.coins ≠ [] ∧ ∀ coin ∈ op.coins, coin.amount ≠ 0 := by
  refine ⟨?_, fun coin moved => (mem_dropZeros_positive member coin moved).ne'⟩
  obtain ⟨original, -, left⟩ := List.mem_filterMap.mp member
  unfold LedgerOp.dropZeros? at left
  split at left
  next => cases left
  next kept =>
    cases left
    rw [LedgerOp.coins_withCoins]
    exact kept

/-- Dropping zero coins from a batch is harmless: with and without them it fails alike and changes
nothing, or it succeeds and leaves ledgers that hold the same. -/
theorem call_dropZeros (l : Ledger) (inRange : l.InRange) (ops : List LedgerOp)
    (named : ∀ op ∈ ops, ∀ coin ∈ op.coins, validDenom coin.denom = true) :
    ((∃ error, l.call (.apply (dropZeros ops)) = (.error error, l) ∧
        l.call (.apply ops) = (.error error, l)) ∨
      ∃ kept full, l.call (.apply (dropZeros ops)) = (.ok (), kept) ∧
        l.call (.apply ops) = (.ok (), full) ∧ kept.Agrees full) ∧
    ∀ op ∈ dropZeros ops, op.coins ≠ [] ∧ ∀ coin ∈ op.coins, coin.amount ≠ 0 := by
  refine ⟨?_, fun op => mem_dropZeros_coins⟩
  have same := apply_dropZeros (.refl l) inRange named
  generalize left : l.apply (dropZeros ops) = outcome, whole : l.apply ops = outcome' at same
  cases same with
  | failed error => exact .inl ⟨error, call_apply_error left, call_apply_error whole⟩
  | done agrees => exact .inr ⟨_, _, call_apply_ok left, call_apply_ok whole, agrees⟩

/-- A payment with a zero coin beside it, and zero coins minted and burned. -/
theorem call_dropZeros_payment :
    let l := (empty.setBalance (.user ⟨[1], by decide⟩) "ether" 5).setSupply "ether" 5
    let ops : List LedgerOp :=
      [.sendToModule ⟨[1], by decide⟩ "maker" [⟨"uusw", 0⟩, ⟨"ether", 5⟩],
        .mint "maker" [⟨"uusw", 0⟩], .burn "maker" [⟨"ether", 0⟩, ⟨"ether", 2⟩]]
    l.InRange ∧ (∀ op ∈ ops, ∀ coin ∈ op.coins, validDenom coin.denom = true) ∧
      dropZeros ops = [.sendToModule ⟨[1], by decide⟩ "maker" [⟨"ether", 5⟩],
        .burn "maker" [⟨"ether", 2⟩]] ∧
      ∃ kept full, l.call (.apply (dropZeros ops)) = (.ok (), kept) ∧
        l.call (.apply ops) = (.ok (), full) ∧ kept.Agrees full := by
  intro l ops
  have inRange : l.InRange := (InRange.empty.setBalance _ (by decide)).setSupply (by decide)
  have named : ∀ op ∈ ops, ∀ coin ∈ op.coins, validDenom coin.denom = true := by decide
  have succeeds : (l.call (.apply ops)).1 = .ok () := by rfl
  refine ⟨inRange, named, by decide, ?_⟩
  rcases (call_dropZeros l inRange ops named).1 with ⟨error, -, failed⟩ | same
  · rw [failed] at succeeds
    cases succeeds
  · exact same

end Stablecoin.Ledger
