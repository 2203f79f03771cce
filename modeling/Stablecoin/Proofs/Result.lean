import Stablecoin.Collateral.Deposit

/-!
# What a returned value says

A checked operation that returns a value has met its checks. Opening a do block is then a rewrite
with these equivalences, one for each operation that can refuse.
-/
namespace Stablecoin

/-- A sequence returns what its last step returns, and each step before it returned too. -/
@[simp] theorem bind_ok {ε α β : Type} {first : Except ε α} {next : α → Except ε β}
    {result : β} :
    first >>= next = .ok result ↔ ∃ value, first = .ok value ∧ next value = .ok result := by
  cases first <;> simp [bind, Except.bind]

theorem ok_bind {ε α β : Type} (value : α) (next : α → Except ε β) :
    (Except.ok value >>= next) = next value := rfl

/-- A sequence fails at its first step or after it. -/
theorem bind_error {ε α β : Type} {first : Except ε α} {next : α → Except ε β} {failure : ε} :
    first >>= next = .error failure ↔
      first = .error failure ∨ ∃ value, first = .ok value ∧ next value = .error failure := by
  cases first <;> simp [bind, Except.bind]

@[simp] theorem pure_ok {ε α : Type} {value result : α} :
    (pure value : Except ε α) = .ok result ↔ value = result := by
  simp [pure, Except.pure]

@[simp] theorem reject_ok {α : Type} {cause : Rejection} {result : α} :
    (reject cause : Result α) = .ok result ↔ False := by
  simp [reject]

@[simp] theorem require_ok {condition : Prop} [Decidable condition] {cause : Rejection}
    {result : Unit} : require condition cause = .ok result ↔ condition := by
  unfold require
  split
  next held => simp [held]
  next failed => simp [failed]

@[simp] theorem orOverflow_ok {α : Type} {value : Option α} {result : α} :
    orOverflow value = .ok result ↔ value = some result := by
  cases value <;> simp [orOverflow]

/-! ### Amounts -/

theorem amountOf_ok {n : Int} {amount : Nat} : amountOf n = .ok amount ↔ n = amount := by
  unfold amountOf
  split
  next nonNegative => simp only [pure_ok]; omega
  next negative => simp only [reject_ok, false_iff]; omega

theorem Coin.add_ok {c sum : Coin} {n : Nat} :
    c.add n = .ok sum ↔ c.amount + n < amountBound ∧ ⟨c.denom, c.amount + n⟩ = sum := by
  unfold Coin.add
  split
  next fits => simp [fits]
  next wide => simp [wide]

theorem Coin.sub_ok {c rest : Coin} {n : Nat} :
    c.sub n = .ok rest ↔ n ≤ c.amount ∧ ⟨c.denom, c.amount - n⟩ = rest := by
  unfold Coin.sub
  split
  next covered => simp [covered]
  next short => simp [short]

theorem SignedCoin.move_ok {c moved : SignedCoin} {delta : Int} :
    c.move delta = .ok moved ↔
      (delta.natAbs < counterBound ∧ -counterBound ≤ c.amount + delta ∧
        c.amount + delta < counterBound) ∧ ⟨c.denom, c.amount + delta⟩ = moved := by
  unfold SignedCoin.move
  dsimp only
  split
  next fits => simp only [pure_ok, fits, and_self, true_and]
  next wide => simp only [reject_ok, wide, false_and]

theorem Coin.withdraw_ok {balance amount rest : Coin} :
    balance.withdraw amount = .ok rest ↔
      amount.amount ≤ balance.amount ∧
        ⟨balance.denom, balance.amount - amount.amount⟩ = rest := by
  simp only [Coin.withdraw, bind_ok, require_ok, Coin.sub_ok]
  constructor
  · rintro ⟨_, _, covered, rfl⟩
    exact ⟨covered, rfl⟩
  · rintro ⟨covered, rfl⟩
    exact ⟨(), covered, covered, rfl⟩

@[simp] theorem Coin.requireDenom_ok {c : Coin} {expected : Denom} {result : Unit} :
    c.requireDenom expected = .ok result ↔ c.denom = expected := require_ok

/-- A fee is charged in the denomination it is taken from. -/
theorem Coin.fee_denom {c fee : Coin} {rate : Option Decimal} (charged : c.fee rate = .ok fee) :
    fee.denom = c.denom := by
  cases rate with
  | none => cases charged; rfl
  | some rate =>
    simp only [Coin.fee, bind_ok, pure_ok] at charged
    obtain ⟨_, _, _, _, _, _, rfl⟩ := charged
    rfl

end Stablecoin
