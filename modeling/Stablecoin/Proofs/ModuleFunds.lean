import Stablecoin.Proofs.Custody
import Stablecoin.Proofs.LedgerFree
import Stablecoin.Proofs.LedgerHistory
import Stablecoin.Proofs.Parties

/-!
# The module account is never short

A batch takes coins from the module account only after it has brought them there, or out of what the
books say is held there. So if a transaction fails for want of funds, the funds wanting are the
sender's.
-/
namespace Stablecoin

/-- A coin and a fee in its denomination, taken together. -/
theorem Coin.inDenom_gross {c fee : Coin} (same : fee.denom = c.denom) (denom : Denom) :
    (Coin.mk c.denom (c.amount + fee.amount)).inDenom denom
      = c.inDenom denom + fee.inDenom denom := by
  simp only [inDenom, same]
  split <;> simp

/-- What a fee leaves of a coin, the fee taken back. -/
theorem Coin.inDenom_rest (c fee : Coin) (same : fee.denom = c.denom)
    (covered : fee.amount ≤ c.amount) (denom : Denom) :
    (Coin.mk c.denom (c.amount - fee.amount)).inDenom denom
      = c.inDenom denom - fee.inDenom denom := by
  simp only [inDenom, same]
  split <;> omega

theorem amountIn_append (first second : List Coin) (denom : Denom) :
    amountIn (first ++ second) denom = amountIn first denom + amountIn second denom := by
  induction first with
  | nil => simp
  | cons c rest ih =>
    rw [List.cons_append, amountIn_cons, amountIn_cons, ih]
    omega

theorem batchFlow_append (first second : List LedgerOp) (account : Account) (denom : Denom) :
    batchFlow (first ++ second) account denom
      = batchFlow first account denom + batchFlow second account denom := by
  induction first with
  | nil => simp
  | cons op rest ih =>
    rw [List.cons_append, batchFlow_cons, batchFlow_cons, ih]
    omega

/-- Whatever a batch takes from a module, what the module holds by then covers it. -/
def Covered (held : Account → Denom → Int) : List LedgerOp → Prop
  | [] => True
  | op :: rest =>
    (∀ name, op.source = some (.module name) →
      ∀ denom, amountIn op.coins denom ≤ held (.module name) denom) ∧
    Covered (fun account denom => held account denom + op.flow account denom) rest

/-- The balances of a ledger cover a batch. -/
abbrev Ledger.Covers (l : Ledger) (ops : List LedgerOp) : Prop :=
  Covered (fun account denom => l.balance account denom) ops

namespace Covered

variable {held : Account → Denom → Int}

/-- At its turn an operation is covered by what is held and what came before. -/
theorem at_turn {done later : List LedgerOp} {op : LedgerOp} {name : String}
    (covered : Covered held (done ++ op :: later)) (source : op.source = some (.module name))
    (denom : Denom) :
    amountIn op.coins denom
      ≤ held (.module name) denom + batchFlow done (.module name) denom := by
  induction done generalizing held with
  | nil =>
    have first := covered.1 name source denom
    rw [batchFlow_nil]
    omega
  | cons before rest ih =>
    have later := ih covered.2
    rw [batchFlow_cons]
    omega

/-- Leaving out zero coins leaves a covered batch. -/
theorem dropZeros {ops : List LedgerOp} (covered : Covered held ops) :
    Covered held (dropZeros ops) := by
  unfold Stablecoin.dropZeros
  induction ops generalizing held with
  | nil => trivial
  | cons op rest ih =>
    have later := ih covered.2
    rcases op.dropZeros?_cases with ⟨gone, none⟩ | ⟨coins, left, same⟩
    · -- An operation of zero coins changes nothing for those after it.
      have still (account : Account) (denom : Denom) : op.flow account denom = 0 := by
        simp [LedgerOp.flow, none]
      simpa [gone, still] using later
    · have flow (account : Account) (denom : Denom) :
          (op.withCoins coins).flow account denom = op.flow account denom := by
        simp [LedgerOp.flow, same]
      rw [List.filterMap_cons_some left]
      refine ⟨?_, by simpa only [flow] using later⟩
      intro name source denom
      rw [LedgerOp.source_withCoins] at source
      rw [LedgerOp.coins_withCoins, same]
      exact covered.1 name source denom

/-- When its turn comes, each coin that leaves a module is covered by the module's balance. -/
theorem reached {l : Ledger} {ops : List LedgerOp} {op : LedgerOp} {coin : Coin} {middle : Ledger}
    {name : String} (covered : l.Covers ops)
    (reached : l.Reaches ops op coin middle) (source : op.source = some (.module name)) :
    coin.amount ≤ middle.balance (.module name) coin.denom := by
  obtain ⟨done, later, first, rest, rfl, split, applied⟩ := reached
  have enough := covered.at_turn source coin.denom
  have balance := (Ledger.apply_shifted applied).balance (.module name) coin.denom
  rw [batchFlow_append, batchFlow_cons, batchFlow_nil, LedgerOp.flow, LedgerOp.source_withCoins,
    LedgerOp.coins_withCoins, if_pos source] at balance
  rw [split, amountIn_append, amountIn_cons] at enough
  -- Of the operation itself the coins before this one are gone, and no others.
  have this : coin.inDenom coin.denom = coin.amount := if_pos rfl
  have others := amountIn_nonneg rest coin.denom
  have before := amountIn_nonneg first coin.denom
  split at balance <;> omega

end Covered

namespace Engine

variable {e : Engine} {sender : Principal} {plan : Plan}

/-- The module account holds a coin. -/
theorem inDenom_le_held {c : Coin} {denom : Denom} (named : c.denom = denom)
    (held : c.amount ≤ e.moduleBalance denom) (d : Denom) :
    c.inDenom d ≤ e.ledger.balance (.module e.accounts.module) d := by
  unfold Coin.inDenom
  split
  next same =>
    rw [← same, named]
    exact Int.ofNat_le.mpr held
  next => exact Int.natCast_nonneg _

/-! ### Plans -/

/-- What is burned was paid in, and what is paid out was minted. -/
theorem planMint_covered {r : MintRequest} (planned : e.planMint sender r = .ok plan) :
    e.ledger.Covers plan.moves := by
  obtain ⟨-, q, _, _, quoted, -, -, -, moves, -⟩ := planMint_ok planned
  have feeDenom : q.mintFee.denom = q.mintOut.denom := by
    obtain ⟨-, -, _, _, _, _, _, _, _, _, _, _, _, _, _, -, -, -, -, -, -, -, -, -, -, -, -,
      charged, -, rfl⟩ := mintQuote_ok quoted
    simpa using Coin.fee_denom charged
  have minted := Coin.inDenom_gross feeDenom
  have backing := q.backingIn.inDenom_nonneg
  have fee := q.mintFee.inDenom_nonneg
  -- Leg by leg, what the module has by then is a sum of the parts above.
  simp only [moves, Ledger.Covers, Covered, LedgerOp.source, LedgerOp.coins]
  grind

theorem planBurn_covered {r : BurnRequest} (planned : e.planBurn sender r = .ok plan) :
    e.ledger.Covers plan.moves := by
  obtain ⟨-, q, _, _, quoted, -, -, covered, -, -, moves, -⟩ := planBurn_ok planned
  obtain ⟨feeDenom, held⟩ : q.burnFee.denom = r.burnIn.denom ∧
      ∀ d, q.backingOut.inDenom d ≤ e.ledger.balance (.module e.accounts.module) d := by
    obtain ⟨-, -, _, _, _, _, _, _, _, _, -, -, -, charged, -, -, -, -, -, held, rfl⟩ :=
      burnQuote_ok quoted
    exact ⟨Coin.fee_denom charged, inDenom_le_held rfl held⟩
  have burned := Coin.inDenom_rest _ _ feeDenom covered
  have fee := q.burnFee.inDenom_nonneg
  simp only [moves, Ledger.Covers, Covered, LedgerOp.source, LedgerOp.coins]
  grind

theorem planBuyback_covered {r : BuybackRequest} (planned : e.planBuyback sender r = .ok plan) :
    e.ledger.Covers plan.moves := by
  obtain ⟨q, _, _, quoted, -, -, -, moves, -⟩ := planBuyback_ok planned
  -- Payout and fee come out of what was found to be held.
  have held (d : Denom) : q.backingOut.inDenom d + q.buybackFee.inDenom d
      ≤ e.ledger.balance (.module e.accounts.module) d := by
    obtain ⟨-, _, _, _, _, _, total, _, fee, -, -, -, -, -, -, -, -, -, held, charged, covered,
      rfl⟩ := buybackQuote_ok quoted
    let whole : Coin := ⟨r.backingOutMin.denom, total⟩
    have rest := Coin.inDenom_rest whole _ (Coin.fee_denom charged) covered d
    have taken := inDenom_le_held (c := whole) rfl held d
    dsimp only [whole] at rest taken ⊢
    omega
  have backing := q.backingOut.inDenom_nonneg
  have fee := q.buybackFee.inDenom_nonneg
  simp only [moves, Ledger.Covers, Covered, LedgerOp.source, LedgerOp.coins]
  grind

theorem planReback_covered {r : RebackRequest} (planned : e.planReback sender r = .ok plan) :
    e.ledger.Covers plan.moves := by
  obtain ⟨-, q, _, _, quoted, -, -, -, moves, -⟩ := planReback_ok planned
  have feeDenom : q.rebackFee.denom = q.nativeOut.denom := by
    obtain ⟨_, _, _, _, _, _, _, _, _, _, _, -, -, -, -, -, -, -, -, -, -, charged, -, -, -,
      rfl⟩ := rebackQuote_ok quoted
    simpa using Coin.fee_denom charged
  have minted := Coin.inDenom_gross feeDenom
  have backing := r.backingIn.inDenom_nonneg
  have fee := q.rebackFee.inDenom_nonneg
  simp only [moves, Ledger.Covers, Covered, LedgerOp.source, LedgerOp.coins]
  grind

theorem planBorrow_covered {r : BorrowRequest} (planned : e.planBorrow sender r = .ok plan) :
    e.ledger.Covers plan.moves := by
  obtain ⟨fee, _, computed, moves, -⟩ := planBorrow_ok planned
  obtain ⟨-, _, _, _, _, _, -, -, -, -, charged, -⟩ := afterBorrow_ok computed
  have minted := Coin.inDenom_gross (Coin.fee_denom charged)
  have nonneg := fee.inDenom_nonneg
  simp only [moves, Ledger.Covers, Covered, LedgerOp.source, LedgerOp.coins]
  grind

theorem planRepay_covered {r : RepayRequest} (planned : e.planRepay sender r = .ok plan) :
    e.ledger.Covers plan.moves := by
  obtain ⟨parts, _, computed, moves, -⟩ := planRepay_ok planned
  -- The principal part is what the interest leaves of the payment.
  have burned (d : Denom) : parts.repayPrincipal.inDenom d
      = parts.repayIn.inDenom d - parts.repayInterest.inDenom d := by
    obtain ⟨-, _, _, repayIn, repayInterest, -, -, -, -, shared, rfl, -⟩ := afterRepay_ok computed
    have within : repayInterest ≤ repayIn := shared ▸ Nat.min_le_right _ _
    exact Coin.inDenom_rest ⟨stableDenom, repayIn⟩ ⟨stableDenom, repayInterest⟩ rfl within d
  have interest := parts.repayInterest.inDenom_nonneg
  simp only [moves, Ledger.Covers, Covered, LedgerOp.source, LedgerOp.coins]
  grind

theorem planDeposit_covered {r : DepositRequest} (planned : e.planDeposit sender r = .ok plan) :
    e.ledger.Covers plan.moves := by
  obtain ⟨_, -, moves, -⟩ := planDeposit_ok planned
  simp [moves, Ledger.Covers, Covered, LedgerOp.source]

theorem custody_nonneg (s : Store) (denom : Denom) : 0 ≤ s.custody denom := by
  have locked := Table.sumEntries_nonneg
    (f := fun _ pool => (CollateralPool.nativeLocked pool).amount) (fun _ _ => by omega)
    s.collateralPools.entries
  unfold Store.custody Table.sum
  split <;> omega

/-- What is released from a position is held, because what the books say is held. -/
theorem released_le_held {owner : Principal} {denom : Denom} {mayOpen : Bool}
    {before after : PositionRecords} {change : PositionChange} (keyed : e.store.Keyed)
    (booked : ∀ d, e.store.custody d ≤ e.moduleBalance d)
    (loaded : e.position owner denom mayOpen = .ok before) (changed : before.Changed change after)
    (d : Denom) :
    0 ≤ e.moduleBalance d + (if denom = d then change.collateral else 0)
      + if nativeDenom = d then change.native else 0 := by
  have left := (update_positionBooked keyed loaded changed).custody changed d
  have nonneg := custody_nonneg (e.store.update (.position after)) d
  have held := booked d
  omega

theorem planRedeem_covered {r : RedeemRequest} (keyed : e.store.Keyed)
    (booked : ∀ d, e.store.custody d ≤ e.moduleBalance d)
    (planned : e.planRedeem sender r = .ok plan) :
    e.ledger.Covers plan.moves := by
  obtain ⟨after, computed, moves, -⟩ := planRedeem_ok planned
  obtain ⟨native, risk, settled, _, _, known, loaded, redeemed, -⟩ := afterRedeem_ok computed
  obtain ⟨before, found, interest, accrued⟩ := settledPosition_changed keyed.named known loaded
  have changed := accrued.trans (PositionRecords.redeem_changed redeemed)
  -- Collateral and native token are different, so each is covered by its own part of the books.
  have held (d : Denom) : r.collateralOut.inDenom d + r.nativeOut.inDenom d
      ≤ e.ledger.balance (.module e.accounts.module) d := by
    have released := released_le_held keyed booked found changed d
    unfold moduleBalance at released
    simp only [Coin.inDenom, native, Int.zero_add] at released ⊢
    grind
  simp only [moves, Ledger.Covers, Covered, LedgerOp.source, LedgerOp.coins]
  grind

theorem planLiquidate_covered {r : LiquidateRequest} (keyed : e.store.Keyed)
    (booked : ∀ d, e.store.custody d ≤ e.moduleBalance d)
    (planned : e.planLiquidate sender r = .ok plan) :
    e.ledger.Covers plan.moves := by
  obtain ⟨parts, after, computed, moves, -⟩ := planLiquidate_ok planned
  -- The payment is split in two, and the collateral that was asked for is too.
  obtain ⟨paid, held⟩ :
      (∀ d, parts.refund.inDenom d = parts.repayIn.inDenom d - parts.repayDebt.inDenom d) ∧
      ∀ d, parts.collateralOut.inDenom d + parts.commission.inDenom d
        ≤ e.ledger.balance (.module e.accounts.module) d := by
    obtain ⟨-, risk, _, settled, _, _, commission, _, _, repayIn, repayDebt, _, known, -, loaded,
      -, -, -, -, -, -, -, -, covered, capped, -, rfl, liquidated⟩ := afterLiquidate_ok computed
    obtain ⟨before, found, interest, accrued⟩ := settledPosition_changed keyed.named known loaded
    have within : repayDebt ≤ repayIn := capped ▸ Nat.min_le_right _ _
    refine ⟨Coin.inDenom_rest ⟨stableDenom, repayIn⟩ ⟨stableDenom, repayDebt⟩ rfl within, ?_⟩
    intro d
    have rest := Coin.inDenom_rest r.collateral ⟨r.collateral.denom, commission⟩ rfl covered d
    have released := released_le_held keyed booked found (accrued.trans liquidated) d
    unfold moduleBalance at released
    simp only [Coin.inDenom, Int.zero_add] at rest released ⊢
    grind
  have debt := parts.repayDebt.inDenom_nonneg
  have refund := parts.refund.inDenom_nonneg
  have commission := parts.commission.inDenom_nonneg
  have collateral := parts.collateralOut.inDenom_nonneg
  simp only [moves, Ledger.Covers, Covered, LedgerOp.source, LedgerOp.coins]
  grind

/-- Every plan takes from the module account only what is there by then. -/
theorem plan_covered {request : Request} (keyed : e.store.Keyed)
    (booked : ∀ d, e.store.custody d ≤ e.moduleBalance d)
    (planned : e.plan sender request = .ok plan) :
    e.ledger.Covers plan.moves := by
  cases request with
  | mint => exact planMint_covered planned
  | burn => exact planBurn_covered planned
  | buyback => exact planBuyback_covered planned
  | reback => exact planReback_covered planned
  | borrow => exact planBorrow_covered planned
  | repay => exact planRepay_covered planned
  | deposit => exact planDeposit_covered planned
  | redeem => exact planRedeem_covered keyed booked planned
  | liquidate => exact planLiquidate_covered keyed booked planned

end Engine

/-! ### Who is short of funds -/

namespace Ledger

variable {l : Ledger} {account : Account} {coin required : Coin} {held : Nat}

theorem debit_insufficient {source : Account}
    (refused : l.debit source coin = .error (.insufficientFunds account required held)) :
    source = account ∧ l.balance account coin.denom < coin.amount := by
  unfold debit at refused
  rcases bind_error.mp refused with unnamed | ⟨_, -, refused⟩
  · cases requireDenom_error unnamed
  · dsimp only at refused
    split at refused
    next => cases refused
    next short =>
      cases refused
      exact ⟨rfl, Nat.lt_of_not_le short⟩

theorem credit_ne_insufficient {target : Account} :
    l.credit target coin ≠ .error (.insufficientFunds account required held) := by
  intro refused
  rcases credit_error refused with unnamed | ⟨full, -⟩
  · cases unnamed
  · cases full

/-- A coin that cannot be moved for want of funds is missing where it was to come from. -/
theorem moveCoin_insufficient {op : LedgerOp}
    (failed : op.moveCoin l coin = .error (.insufficientFunds account required held)) :
    op.source = some account ∧ l.balance account coin.denom < coin.amount := by
  have transfer {source target : Account}
      (failed : transferCoin source target l coin
        = .error (.insufficientFunds account required held)) :
      some source = some account ∧ l.balance account coin.denom < coin.amount := by
    unfold transferCoin at failed
    rcases bind_error.mp failed with refused | ⟨_, -, refused⟩
    · obtain ⟨rfl, short⟩ := debit_insufficient refused
      exact ⟨rfl, short⟩
    · exact absurd refused credit_ne_insufficient
  cases op with
  | sendToModule => exact transfer failed
  | sendToUser => exact transfer failed
  | sendBetweenModules => exact transfer failed
  | mint module coins =>
    -- Minting takes from nobody.
    change mintCoin module l coin = _ at failed
    unfold mintCoin at failed
    rcases bind_error.mp failed with refused | ⟨_, -, refused⟩
    · rcases raiseSupply_error refused with unnamed | ⟨full, -⟩
      · cases unnamed
      · cases full
    · exact absurd refused credit_ne_insufficient
  | burn module coins =>
    change burnCoin module l coin = _ at failed
    unfold burnCoin at failed
    rcases bind_error.mp failed with refused | ⟨_, -, refused⟩
    · obtain ⟨rfl, short⟩ := debit_insufficient refused
      exact ⟨rfl, short⟩
    · cases refused

end Ledger

theorem mem_dropZeros {ops : List LedgerOp} {op : LedgerOp} (member : op ∈ dropZeros ops) :
    ∃ original ∈ ops, original.source = op.source := by
  obtain ⟨original, asked, left⟩ := List.mem_filterMap.mp member
  rcases original.dropZeros?_cases with ⟨gone, -⟩ | ⟨coins, kept, -⟩
  · rw [gone] at left
    cases left
  · rw [kept] at left
    cases left
    exact ⟨original, asked, (LedgerOp.source_withCoins original coins).symm⟩

theorem mem_dropZeros_positive {ops : List LedgerOp} {op : LedgerOp}
    (member : op ∈ dropZeros ops) : ∀ coin ∈ op.coins, 0 < coin.amount := by
  intro coin moved
  obtain ⟨original, -, left⟩ := List.mem_filterMap.mp member
  unfold LedgerOp.dropZeros? at left
  split at left
  next => cases left
  next =>
    cases left
    rw [LedgerOp.coins_withCoins] at moved
    simpa [Coin.isPositive] using (List.mem_filter.mp moved).2

namespace Ledger

variable {l : Ledger} {op : LedgerOp} {account : Account} {coin : Coin}

theorem debit_fails (named : validDenom coin.denom = true)
    (short : l.balance account coin.denom < coin.amount) :
    l.debit account coin
      = .error (.insufficientFunds account coin (l.balance account coin.denom)) := by
  refine bind_error.mpr (.inr ⟨(), requireDenom_ok.mpr named, ?_⟩)
  rw [if_neg (Nat.not_le.mpr short)]
  rfl

theorem moveCoin_succeeds (valid : l.Valid) (conserved : l.Conserved)
    (source : op.source = some account) (positive : 0 < coin.amount)
    (covered : coin.amount ≤ l.balance account coin.denom) :
    ∃ after, op.moveCoin l coin = .ok after := by
  have named : validDenom coin.denom = true := valid.named account coin.denom (by omega)
  cases op with
  | sendToModule | sendToUser | sendBetweenModules =>
    cases source
    exact transferCoin_succeeds valid conserved _ positive covered
  | mint => cases source
  | burn module coins =>
    cases source
    exact ⟨_, bind_ok.mpr ⟨_, debit_succeeds named covered, rfl⟩⟩

theorem moveCoin_fails (named : validDenom coin.denom = true) (source : op.source = some account)
    (short : l.balance account coin.denom < coin.amount) :
    op.moveCoin l coin
      = .error (.insufficientFunds account coin (l.balance account coin.denom)) := by
  have taken := debit_fails named short
  cases op with
  | sendToModule | sendToUser | sendBetweenModules | burn =>
    cases source
    exact bind_error.mpr (.inl taken)
  | mint => cases source

/-- A batch that mints nothing, and that modules can pay for their part, fails only when it comes to
a user who cannot. -/
theorem Covers.short_user (valid : l.Valid) (conserved : l.Conserved) {ops : List LedgerOp}
    (covered : l.Covers ops) (unminted : ∀ op ∈ ops, op.source ≠ none) {error : LedgerError}
    (failed : l.apply (dropZeros ops) = .error error) :
    ∃ op coin middle user, l.Reaches (dropZeros ops) op coin middle ∧
      op.source = some (.user user) ∧ middle.balance (.user user) coin.denom < coin.amount ∧
      op.moveCoin middle coin = .error error := by
  obtain ⟨op, coin, middle, reached, stuck⟩ := apply_error failed
  have ⟨done, later, first, rest, whole, split, applied⟩ := reached
  have member : op ∈ dropZeros ops := by simp [whole]
  have positive := mem_dropZeros_positive member coin (by simp [split])
  -- Whoever holds the coin could have paid it.
  have short {account : Account} (source : op.source = some account) :
      middle.balance account coin.denom < coin.amount := by
    by_contra enough
    obtain ⟨after, moved⟩ := moveCoin_succeeds (valid.apply applied)
      ((apply_shifted applied).conserved conserved) source positive (Nat.not_lt.mp enough)
    cases stuck.symm.trans moved
  obtain ⟨original, asked, same⟩ := mem_dropZeros member
  cases source : op.source with
  | none => exact absurd (same.trans source) (unminted original asked)
  | some account =>
    cases account with
    | user user => exact ⟨op, coin, middle, user, reached, source, short source, stuck⟩
    | module name =>
      exact absurd (covered.dropZeros.reached reached source) (Nat.not_le.mpr (short source))

/-- If an account pays a single coin, and that first, nothing has happened when its turn comes. -/
theorem Reaches.first {first : LedgerOp} {rest : List LedgerOp} {paid : Coin} {middle : Ledger}
    (single : first.coins = [paid]) (alone : ∀ op ∈ rest, op.source ≠ some account)
    (reached : l.Reaches (dropZeros (first :: rest)) op coin middle)
    (source : op.source = some account) :
    first.source = some account ∧ coin = paid ∧ middle = l := by
  obtain ⟨done, later, before, behind, whole, split, applied⟩ := reached
  have elsewhere : op ∉ dropZeros rest := by
    intro member
    obtain ⟨original, asked, same⟩ := mem_dropZeros member
    exact alone original asked (same.trans source)
  have kept : first.dropZeros? = none ∨ first.dropZeros? = some (first.withCoins [paid]) := by
    unfold LedgerOp.dropZeros?
    rw [single]
    cases positive : paid.isPositive <;> simp [positive]
  rcases kept with gone | kept
  · have later : dropZeros (first :: rest) = dropZeros rest := List.filterMap_cons_none gone
    exact absurd (by simp [← later, whole]) elsewhere
  · have both : dropZeros (first :: rest) = first.withCoins [paid] :: dropZeros rest :=
      List.filterMap_cons_some kept
    rw [both] at whole
    cases done with
    | cons _ others =>
      have tail := (List.cons.inj whole).2
      exact absurd (by simp [tail]) elsewhere
    | nil =>
      obtain ⟨rfl, -⟩ := List.cons.inj whole
      rw [LedgerOp.coins_withCoins] at split
      obtain ⟨rfl, alone⟩ : before = [] ∧ coin = paid := by
        cases before with
        | nil => exact ⟨rfl, (List.cons.inj split).1.symm⟩
        | cons _ others => exact absurd (List.cons.inj split).2 (by simp)
      refine ⟨(LedgerOp.source_withCoins first _).symm.trans source, alone, ?_⟩
      -- Of the first operation no coin has been moved yet.
      rw [List.nil_append, apply, List.foldlM_cons, perform_withCoins] at applied
      exact (Except.ok.inj applied).symm

end Ledger

namespace Engine

variable {e : Engine} {sender : Principal} {request : Request}

/-- A request that the ledger refuses had been planned, and its batch was refused. -/
theorem transact_ledgerError {error : LedgerError}
    (refused : (e.transact sender request).result = .error (.rejected (.ledger error))) :
    ∃ plan, e.plan sender request = .ok plan ∧
      e.ledger.apply (dropZeros plan.moves) = .error error := by
  rcases transact_error refused with unplanned | ⟨plan, _, planned, failed, same⟩
  · -- Planning asks no ledger, so this is not its error.
    exact absurd unplanned (plan_ledgerFree e sender request error)
  · cases same
    exact ⟨plan, planned, failed⟩

/-- The ledger is given the batch of a plan. -/
theorem transact_submitted {batch : List LedgerOp}
    (submitted : (e.transact sender request).submitted = some batch) :
    ∃ plan, e.plan sender request = .ok plan ∧ batch = dropZeros plan.moves := by
  unfold transact at submitted
  split at submitted
  next => cases submitted
  next plan planned =>
    unfold carryOut at submitted
    dsimp only at submitted
    split at submitted <;> exact ⟨plan, planned, (Option.some.inj submitted).symm⟩

/-- After every run from an empty store the module account holds what the books say. -/
theorem run_booked (params : Params) (accounts : ModuleAccounts) (actions : List Action)
    (denom : Denom) :
    let e := (fresh params accounts).run actions
    e.store.custody denom ≤ e.moduleBalance denom := by
  intro e
  obtain ⟨fees, nonneg, -, held⟩ := run_unbooked (fresh_sound params accounts) actions denom
  have before := fresh_unbooked params accounts denom
  -- What came from outside only adds to what the module account holds beyond the books.
  have outside := (fresh params accounts).credited_nonneg actions denom
  change (e.moduleBalance denom : Int) - e.store.custody denom = _ at held
  omega

/-- After every run, a transaction that fails for want of funds wants them of its sender: whatever
batch it gave the ledger, each coin of it that a module burns or sends on, as payout, refund, fee or
commission, is covered by the balance of that module when its turn comes. -/
theorem run_moduleCovers (params : Params) (accounts : ModuleAccounts) (actions : List Action)
    (sender : Principal) (request : Request) :
    let e := (fresh params accounts).run actions
    let receipt := e.transact sender request
    (∀ account required held,
      receipt.result = .error (.rejected (.ledger (.insufficientFunds account required held))) →
      account = .user sender) ∧
    ∀ batch op coin middle name, receipt.submitted = some batch →
      e.ledger.Reaches batch op coin middle → op.source = some (.module name) →
      coin.amount ≤ middle.balance (.module name) coin.denom := by
  intro e receipt
  have sound : e.Sound := run_sound (fresh_sound params accounts) actions
  have booked : ∀ denom, e.store.custody denom ≤ e.moduleBalance denom :=
    run_booked params accounts actions
  constructor
  · intro account required held refused
    obtain ⟨plan, planned, failed⟩ := transact_ledgerError refused
    obtain ⟨op, coin, middle, reached, stuck⟩ := Ledger.apply_error failed
    obtain ⟨source, short⟩ := Ledger.moveCoin_insufficient stuck
    cases account with
    | user owner =>
      -- A plan takes coins from no user but the sender.
      obtain ⟨done, later, _, _, whole, -⟩ := reached
      have member : op ∈ dropZeros plan.moves := by simp [whole]
      obtain ⟨original, asked, same⟩ := mem_dropZeros member
      rw [plan_source planned asked (same.trans source)]
    | module name =>
      -- A module had what it was asked for.
      have covered := (plan_covered sound.keyed booked planned).dropZeros.reached reached source
      exact absurd covered (Nat.not_le.mpr short)
  · intro batch op coin middle name submitted reached source
    obtain ⟨plan, planned, rfl⟩ := transact_submitted submitted
    exact (plan_covered sound.keyed booked planned).dropZeros.reached reached source

/-- A liquidator without stable units is told so, and one who has them finds the commission in the
module account when it is due. -/
theorem run_moduleCovers_loanRun :
    let borrower : Principal := ⟨[1], by decide⟩
    let liquidator : Principal := ⟨[2], by decide⟩
    let stranger : Principal := ⟨[3], by decide⟩
    let e := (fresh .initial .initial).run loanRun.dropLast
    let request := .liquidate ⟨none, borrower, ⟨"ether", 100⟩, ⟨stableDenom, 1000⟩⟩
    let batch : List LedgerOp :=
      [.sendToModule liquidator "maker" [⟨stableDenom, 45⟩], .burn "maker" [⟨stableDenom, 45⟩],
        .sendToUser "maker" liquidator [⟨"ether", 99⟩],
        .sendBetweenModules "maker" "oracle" [⟨"ether", 1⟩]]
    (∃ account, (e.transact stranger request).result
        = .error (.rejected (.ledger (.insufficientFunds account ⟨stableDenom, 45⟩ 0))) ∧
      account = .user stranger) ∧
    (e.transact liquidator request).submitted = some batch ∧
      ∃ middle, e.ledger.Reaches batch (.sendBetweenModules "maker" "oracle" [⟨"ether", 1⟩])
          ⟨"ether", 1⟩ middle ∧
        1 ≤ middle.balance (.module "maker") "ether" := by
  intro borrower liquidator stranger e request batch
  have refused : (e.transact stranger request).result = .error
      (.rejected (.ledger (.insufficientFunds (.user stranger) ⟨stableDenom, 45⟩ 0))) := by
    decide +kernel
  have submitted : (e.transact liquidator request).submitted = some batch := by decide +kernel
  obtain ⟨middle, applied⟩ : ∃ middle,
      e.ledger.apply (batch.take 3 ++ [.sendBetweenModules "maker" "oracle" []]) = .ok middle := by
    have accepted : (e.ledger.apply
        (batch.take 3 ++ [.sendBetweenModules "maker" "oracle" []])).isOk = true := by
      decide +kernel
    cases result : e.ledger.apply (batch.take 3 ++ [.sendBetweenModules "maker" "oracle" []]) with
    | ok middle => exact ⟨middle, rfl⟩
    | error =>
      rw [result] at accepted
      cases accepted
  have reached : e.ledger.Reaches batch (.sendBetweenModules "maker" "oracle" [⟨"ether", 1⟩])
      ⟨"ether", 1⟩ middle := ⟨batch.take 3, [], [], [], rfl, rfl, applied⟩
  obtain ⟨sender, -⟩ := run_moduleCovers .initial .initial loanRun.dropLast stranger request
  obtain ⟨-, covered⟩ := run_moduleCovers .initial .initial loanRun.dropLast liquidator request
  exact ⟨⟨_, refused, sender _ _ _ refused⟩, submitted, middle, reached,
    covered batch _ _ _ _ submitted reached rfl⟩

end Engine

end Stablecoin
