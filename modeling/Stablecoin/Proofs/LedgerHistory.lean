import Stablecoin.Proofs.LedgerBounds

/-!
# Histories of a ledger

A ledger is asked to issue coins and to apply batches, in any order and with whatever failures in
between. Along every history that starts from nothing the supplies are the sums of the balances.
That is what makes a call all or nothing, what keeps lowering a supply from stopping at zero, and
why only an issue can overflow: nobody can hold more than there is.
-/
namespace Stablecoin

/-- What a ledger can be asked to do. -/
inductive LedgerCall where
  | fund (account : Account) (coin : Coin)
  | apply (ops : List LedgerOp)
  deriving DecidableEq, Repr

/-- How an operation moves each of its coins. -/
def LedgerOp.moveCoin : LedgerOp → Ledger → Coin → Except LedgerError Ledger
  | sendToModule source module _ => Ledger.transferCoin (.user source) (.module module)
  | sendToUser module target _ => Ledger.transferCoin (.module module) (.user target)
  | sendBetweenModules source target _ => Ledger.transferCoin (.module source) (.module target)
  | mint module _ => Ledger.mintCoin module
  | burn module _ => Ledger.burnCoin module

/-- A fold that fails has come to an element at which its step fails. -/
theorem foldlM_error {ε α β : Type} {step : β → α → Except ε β} {xs : List α} {start : β}
    {error : ε} (failed : xs.foldlM step start = .error error) :
    ∃ done x later middle, xs = done ++ x :: later ∧ done.foldlM step start = .ok middle ∧
      step middle x = .error error := by
  induction xs generalizing start with
  | nil => cases failed
  | cons x rest ih =>
    rw [List.foldlM_cons, bind_error] at failed
    rcases failed with first | ⟨next, stepped, failed⟩
    · exact ⟨[], x, rest, start, rfl, rfl, first⟩
    · obtain ⟨done, y, later, middle, rfl, reached, broke⟩ := ih failed
      refine ⟨x :: done, y, later, middle, rfl, ?_, broke⟩
      rw [List.foldlM_cons, bind_ok]
      exact ⟨next, stepped, reached⟩

namespace Ledger

variable {l : Ledger}

/-- What a call answers, and the ledger after it. -/
def call (l : Ledger) : LedgerCall → Except LedgerError Unit × Ledger
  | .fund account coin => l.fund account coin
  | .apply ops =>
    match l.apply ops with
    | .ok after => (.ok (), after)
    | .error error => (.error error, l)

theorem call_apply_ok {ops : List LedgerOp} {after : Ledger} (applied : l.apply ops = .ok after) :
    l.call (.apply ops) = (.ok (), after) := by
  simp [call, applied]

theorem call_apply_error {ops : List LedgerOp} {error : LedgerError}
    (failed : l.apply ops = .error error) : l.call (.apply ops) = (.error error, l) := by
  simp [call, failed]

/-- The ledger after a history of calls, failed ones included. -/
def after (l : Ledger) (history : List LedgerCall) : Ledger :=
  history.foldl (fun l call => (l.call call).2) l

/-- Carrying out a batch, the turn comes to a coin of one of its operations when the ledger has got
to a certain state. -/
def Reaches (l : Ledger) (ops : List LedgerOp) (op : LedgerOp) (coin : Coin) (middle : Ledger) :
    Prop :=
  ∃ done later first rest, ops = done ++ op :: later ∧ op.coins = first ++ coin :: rest ∧
    l.apply (done ++ [op.withCoins first]) = .ok middle

/-! ### Where a batch fails -/

theorem perform_withCoins (l : Ledger) (op : LedgerOp) (coins : List Coin) :
    l.perform (op.withCoins coins) = coins.foldlM op.moveCoin l := by
  cases op <;> rfl

theorem perform_eq (l : Ledger) (op : LedgerOp) :
    l.perform op = op.coins.foldlM op.moveCoin l := by
  cases op <;> rfl

/-- A batch that fails has come to a coin that cannot be moved. -/
theorem apply_error {ops : List LedgerOp} {error : LedgerError}
    (failed : l.apply ops = .error error) :
    ∃ op coin middle, l.Reaches ops op coin middle ∧ op.moveCoin middle coin = .error error := by
  obtain ⟨done, op, later, start, rfl, reached, broke⟩ := foldlM_error failed
  rw [perform_eq] at broke
  obtain ⟨first, coin, rest, middle, split, moved, stuck⟩ := foldlM_error broke
  refine ⟨op, coin, middle, ⟨done, later, first, rest, rfl, split, ?_⟩, stuck⟩
  rw [apply, List.foldlM_append, bind_ok]
  refine ⟨start, reached, ?_⟩
  rw [List.foldlM_cons, bind_ok]
  exact ⟨middle, (perform_withCoins start op first).trans moved, rfl⟩

/-! ### What overflows -/

theorem requireDenom_error {denom : Denom} {error : LedgerError}
    (refused : requireDenom denom = .error error) : error = .invalidDenom denom := by
  unfold requireDenom at refused
  split at refused
  next => cases refused
  next => cases refused; rfl

theorem debit_error {account : Account} {coin : Coin} {error : LedgerError}
    (refused : l.debit account coin = .error error) :
    error = .invalidDenom coin.denom ∨
      error = .insufficientFunds account coin (l.balance account coin.denom) := by
  unfold debit at refused
  rcases bind_error.mp refused with unnamed | ⟨_, -, refused⟩
  · exact .inl (requireDenom_error unnamed)
  · dsimp only at refused
    split at refused
    next => cases refused
    next => cases refused; exact .inr rfl

theorem credit_error {account : Account} {coin : Coin} {error : LedgerError}
    (refused : l.credit account coin = .error error) :
    error = .invalidDenom coin.denom ∨
      error = .overflow coin ∧ amountBound ≤ l.balance account coin.denom + coin.amount := by
  unfold credit at refused
  rcases bind_error.mp refused with unnamed | ⟨_, -, refused⟩
  · exact .inl (requireDenom_error unnamed)
  · dsimp only at refused
    split at refused
    next => cases refused
    next full => cases refused; exact .inr ⟨rfl, Nat.le_of_not_lt full⟩

theorem raiseSupply_error {coin : Coin} {error : LedgerError}
    (refused : l.raiseSupply coin = .error error) :
    error = .invalidDenom coin.denom ∨
      error = .overflow coin ∧ amountBound ≤ l.supply coin.denom + coin.amount := by
  unfold raiseSupply at refused
  rcases bind_error.mp refused with unnamed | ⟨_, -, refused⟩
  · exact .inl (requireDenom_error unnamed)
  · dsimp only at refused
    split at refused
    next => cases refused
    next full => cases refused; exact .inr ⟨rfl, Nat.le_of_not_lt full⟩

/-- In a ledger where every unit is held by someone, whoever receives a coin that someone has just
given away has room for it. -/
theorem room_after_debit (conserved : l.Conserved) (valid : l.Valid) {source : Account}
    {coin : Coin} {taken : Ledger} (debited : l.debit source coin = .ok taken) (target : Account) :
    taken.balance target coin.denom + coin.amount < amountBound := by
  obtain ⟨covered, rfl⟩ := debit_ok debited
  have left := total_setBalance l source coin.denom coin.denom
    (l.balance source coin.denom - coin.amount)
  have held := balance_le_total
    (l.setBalance source coin.denom (l.balance source coin.denom - coin.amount)) target coin.denom
  have counted := conserved coin.denom
  have bounded := valid.supply coin.denom
  rw [if_pos rfl] at left
  omega

/-- Whoever receives a coin that has just been counted in the supply has room for it. -/
theorem room_after_raiseSupply (conserved : l.Conserved) {coin : Coin} {raised : Ledger}
    (counted : l.raiseSupply coin = .ok raised) (target : Account) :
    raised.balance target coin.denom + coin.amount < amountBound := by
  have held := l.balance_le_total target coin.denom
  have known := conserved coin.denom
  unfold raiseSupply at counted
  obtain ⟨_, -, counted⟩ := bind_ok.mp counted
  dsimp only at counted
  split at counted
  next room =>
    cases pure_ok.mp counted
    change l.balance target coin.denom + coin.amount < amountBound
    omega
  next => cases counted

theorem transferCoin_overflow (conserved : l.Conserved) (valid : l.Valid)
    {source target : Account} {coin other : Coin} :
    transferCoin source target l coin ≠ .error (.overflow other) := by
  intro failed
  unfold transferCoin at failed
  rcases bind_error.mp failed with refused | ⟨taken, debited, refused⟩
  · rcases debit_error refused with unnamed | short
    · cases unnamed
    · cases short
  · rcases credit_error refused with unnamed | ⟨-, full⟩
    · cases unnamed
    · exact absurd (room_after_debit conserved valid debited target) (Nat.not_lt.mpr full)

/-- Minting overflows only for want of room in the supply. -/
theorem mintCoin_overflow (conserved : l.Conserved) {module : String} {coin other : Coin}
    (failed : mintCoin module l coin = .error (.overflow other)) :
    other = coin ∧ amountBound ≤ l.supply coin.denom + coin.amount := by
  unfold mintCoin at failed
  rcases bind_error.mp failed with refused | ⟨raised, counted, refused⟩
  · rcases raiseSupply_error refused with unnamed | ⟨same, full⟩
    · cases unnamed
    · cases same
      exact ⟨rfl, full⟩
  · rcases credit_error refused with unnamed | ⟨-, full⟩
    · cases unnamed
    · exact absurd (room_after_raiseSupply conserved counted _) (Nat.not_lt.mpr full)

theorem burnCoin_overflow {module : String} {coin other : Coin} :
    burnCoin module l coin ≠ .error (.overflow other) := by
  intro failed
  unfold burnCoin at failed
  rcases bind_error.mp failed with refused | ⟨taken, -, refused⟩
  · rcases debit_error refused with unnamed | short
    · cases unnamed
    · cases short
  · cases refused

/-- Of all operations only a mint can overflow. -/
theorem moveCoin_overflow (conserved : l.Conserved) (valid : l.Valid) {op : LedgerOp}
    {coin other : Coin} (failed : op.moveCoin l coin = .error (.overflow other)) :
    (∃ module coins, op = .mint module coins) ∧ other = coin ∧
      amountBound ≤ l.supply coin.denom + coin.amount := by
  cases op with
  | sendToModule => exact absurd failed (transferCoin_overflow conserved valid)
  | sendToUser => exact absurd failed (transferCoin_overflow conserved valid)
  | sendBetweenModules => exact absurd failed (transferCoin_overflow conserved valid)
  | mint module coins => exact ⟨⟨module, coins, rfl⟩, mintCoin_overflow conserved failed⟩
  | burn => exact absurd failed burnCoin_overflow

/-! ### Histories -/

theorem call_keeps (conserved : l.Conserved) (valid : l.Valid) (call : LedgerCall) :
    (l.call call).2.Conserved ∧ (l.call call).2.Valid := by
  cases call with
  | fund account coin =>
    refine ⟨?_, valid.fund account coin⟩
    change (l.fund account coin).2.Conserved
    cases answered : (l.fund account coin).1 with
    | ok => exact (fund_ok answered).conserved conserved
    | error => rwa [fund_refused conserved answered]
  | apply ops =>
    cases applied : l.apply ops with
    | ok after =>
      rw [call_apply_ok applied]
      exact ⟨(apply_shifted applied).conserved conserved, valid.apply applied⟩
    | error =>
      rw [call_apply_error applied]
      exact ⟨conserved, valid⟩

theorem after_keeps (conserved : l.Conserved) (valid : l.Valid) (history : List LedgerCall) :
    (l.after history).Conserved ∧ (l.after history).Valid := by
  induction history generalizing l with
  | nil => exact ⟨conserved, valid⟩
  | cons call rest ih =>
    obtain ⟨conserved', valid'⟩ := call_keeps conserved valid call
    exact ih conserved' valid'

/-- What is guaranteed of the next call, whatever it is. -/
structure Accountable (l : Ledger) : Prop where
  /-- Each supply is the sum of the balances. -/
  conserved : ∀ denom, (l.supply denom : Int) = l.total denom
  /-- A call that fails changes nothing. -/
  unchanged : ∀ call error, (l.call call).1 = .error error → (l.call call).2 = l
  /-- The supply covers each coin that is burned, so that lowering it does not stop at zero. -/
  burnCovered : ∀ ops module coins coin middle taken,
    l.Reaches ops (.burn module coins) coin middle →
    middle.debit (.module module) coin = .ok taken → coin.amount ≤ taken.supply coin.denom
  /-- Issuing a coin overflows only if the supply would leave its range. -/
  fundOverflow : ∀ account coin other, (l.fund account coin).1 = .error (.overflow other) →
    other = coin ∧ amountBound ≤ l.supply coin.denom + coin.amount
  /-- A batch overflows only if it comes to a coin to be minted that the supply has no room for. -/
  applyOverflow : ∀ ops coin, l.apply ops = .error (.overflow coin) →
    ∃ module coins middle, l.Reaches ops (.mint module coins) coin middle ∧
      amountBound ≤ middle.supply coin.denom + coin.amount

theorem accountable (conserved : l.Conserved) (valid : l.Valid) : l.Accountable where
  conserved := conserved
  unchanged call error failed := by
    cases call with
    | fund account coin => exact fund_refused conserved failed
    | apply ops =>
      cases applied : l.apply ops with
      | ok after =>
        rw [call_apply_ok applied] at failed
        cases failed
      | error => rw [call_apply_error applied]
  burnCovered ops module coins coin middle taken reached debited := by
    obtain ⟨_, _, _, _, -, -, applied⟩ := reached
    -- What is burned was held by someone, and all that is held is in the supply.
    have counted := (apply_shifted applied).conserved conserved coin.denom
    have held := middle.balance_le_total (.module module) coin.denom
    obtain ⟨covered, rfl⟩ := debit_ok debited
    change coin.amount ≤ middle.supply coin.denom
    omega
  fundOverflow account coin other failed := by
    unfold Ledger.fund at failed
    split at failed
    next refused =>
      cases failed
      rcases raiseSupply_error refused with unnamed | ⟨same, full⟩
      · cases unnamed
      · cases same
        exact ⟨rfl, full⟩
    next raised counted =>
      split at failed
      next refused =>
        cases failed
        rcases credit_error refused with unnamed | ⟨-, full⟩
        · cases unnamed
        · exact absurd (room_after_raiseSupply conserved counted account) (Nat.not_lt.mpr full)
      next => cases failed
  applyOverflow ops coin failed := by
    obtain ⟨op, other, middle, reached, stuck⟩ := apply_error failed
    have ⟨_, _, _, _, _, _, applied⟩ := reached
    obtain ⟨⟨module, coins, rfl⟩, rfl, full⟩ := moveCoin_overflow
      ((apply_shifted applied).conserved conserved) (valid.apply applied) stuck
    exact ⟨module, coins, middle, reached, full⟩

/-- After every history that starts from nothing a ledger is accountable for the next call. -/
theorem after_accountable (history : List LedgerCall) : (empty.after history).Accountable := by
  obtain ⟨conserved, valid⟩ := after_keeps (fun _ => rfl) empty_valid history
  exact accountable conserved valid

/-- The last unit of the range can be minted; one more overflows, and the batch is undone. -/
example :
    empty.call (.apply [.mint "maker" [⟨"ether", amountBound - 1⟩, ⟨"ether", 1⟩]])
      = (.error (.overflow ⟨"ether", 1⟩), empty) := by
  rfl

end Ledger

end Stablecoin
