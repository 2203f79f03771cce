import Mathlib.Control.Monad.Basic
import Stablecoin.Proofs.Steps

/-!
# What a transaction moves

A request and the answer to it say who pays which coins and who gets which, all but the refund of a
liquidation, which depends on what the debtor owed. Balances change by that and by nothing else,
also where two of the parties are one account, and the amounts answered are within the bounds that
the request sets.
-/
namespace Stablecoin

/-- A coin is no more than a limit in the same denomination. -/
structure Coin.AtMost (c limit : Coin) : Prop where
  denom : c.denom = limit.denom
  amount : c.amount ≤ limit.amount

/-- The coins that a transaction moves, by the party that pays or gets them. -/
structure Movement where
  sender : Principal
  receiver : Principal
  /-- Gets the refund, if there can be one. -/
  debtor : Principal
  paid : List Coin := []
  given : List Coin := []
  refund : List Coin := []
  fee : List Coin := []
  minted : List Coin := []
  burned : List Coin := []

/-! ### Batches -/

section Batches

variable {ops other : List LedgerOp}

/-- The order of a batch makes no difference to what it moves. -/
theorem batchFlow_perm (same : ops.Perm other) (account : Account) (denom : Denom) :
    batchFlow ops account denom = batchFlow other account denom := by
  induction same with
  | nil => rfl
  | cons op _ ih => rw [batchFlow_cons, batchFlow_cons, ih]
  | swap first second rest => simp only [batchFlow_cons]; omega
  | trans _ _ earlier later => exact earlier.trans later

theorem batchIssue_perm (same : ops.Perm other) (denom : Denom) :
    batchIssue ops denom = batchIssue other denom := by
  induction same with
  | nil => rfl
  | cons op _ ih => rw [batchIssue_cons, batchIssue_cons, ih]
  | swap first second rest => simp only [batchIssue_cons]; omega
  | trans _ _ earlier later => exact earlier.trans later

/-- Operations without coins move nothing. -/
theorem batchFlow_filter_coins (ops : List LedgerOp) (account : Account) (denom : Denom) :
    batchFlow (ops.filter fun op => !op.coins.isEmpty) account denom
      = batchFlow ops account denom := by
  induction ops with
  | nil => rfl
  | cons op rest ih =>
    by_cases empty : op.coins = []
    · simp [empty, ih, LedgerOp.flow]
    · simp [empty, ih]

theorem batchIssue_filter_coins (ops : List LedgerOp) (denom : Denom) :
    batchIssue (ops.filter fun op => !op.coins.isEmpty) denom = batchIssue ops denom := by
  induction ops with
  | nil => rfl
  | cons op rest ih =>
    by_cases empty : op.coins = []
    · simp [empty, ih, LedgerOp.issue]
    · simp [empty, ih]

end Batches

namespace Movement

variable (m : Movement) (accounts : ModuleAccounts) (account : Account) (denom : Denom)

/-- What a movement adds to a supply, less what it takes from it. -/
def issued : Int := amountIn m.minted denom - amountIn m.burned denom

/-- What the module account is left with: all that comes in or comes into being there, less all
that goes out or ceases to be. -/
def kept : Int :=
  amountIn m.paid denom + m.issued denom - amountIn m.given denom - amountIn m.refund denom
    - amountIn m.fee denom

/-- What a movement adds to a balance, less what it takes from it. An account that is several of the
parties is counted once for each of them. -/
def change : Int :=
  (if account = .user m.receiver then amountIn m.given denom else 0)
    + (if account = .user m.debtor then amountIn m.refund denom else 0)
    + (if account = .module accounts.feeCollector then amountIn m.fee denom else 0)
    + (if account = .module accounts.module then m.kept denom else 0)
    - (if account = .user m.sender then amountIn m.paid denom else 0)

/-- The legs of a movement, all through the module account. Which of them come before others is
left to whoever asks for the movement. -/
def batch : List LedgerOp :=
  [.sendToModule m.sender accounts.module m.paid, .burn accounts.module m.burned,
    .mint accounts.module m.minted, .sendToUser accounts.module m.debtor m.refund,
    .sendToUser accounts.module m.receiver m.given,
    .sendBetweenModules accounts.module accounts.feeCollector m.fee].filter
      fun op => !op.coins.isEmpty

theorem batchFlow_batch : batchFlow (m.batch accounts) account denom
    = m.change accounts account denom := by
  rw [batch, batchFlow_filter_coins]
  simp only [change, kept, issued, batchFlow_cons, batchFlow_nil, LedgerOp.flow,
    LedgerOp.source, LedgerOp.target, LedgerOp.coins, Option.some.injEq, reduceCtorEq, if_false,
    eq_comm (b := account)]
  -- Only the module account is in every leg, so its part is counted together.
  by_cases module : account = .module accounts.module
  · simp only [module, if_true]
    omega
  · simp only [module, if_false]
    omega

theorem batchIssue_batch : batchIssue (m.batch accounts) denom = m.issued denom := by
  rw [batch, batchIssue_filter_coins]
  simp only [issued, batchIssue_cons, batchIssue_nil, LedgerOp.issue_sendToModule,
    LedgerOp.issue_burn, LedgerOp.issue_mint, LedgerOp.issue_sendToUser,
    LedgerOp.issue_sendBetweenModules]
  omega

end Movement

/-! ### What an answer reports -/

/-- What a liquidation moves if the debtor owed `debt`: so much of the payment is burned, and the
rest of it is refunded. -/
def LiquidateRequest.movement (r : LiquidateRequest) (sender : Principal) (p : LiquidateResponse)
    (debt : Nat) : Movement where
  sender := sender
  receiver := r.receiver.getD sender
  debtor := r.debtor
  paid := [p.repayIn]
  given := [p.collateralOut]
  refund := [⟨p.repayIn.denom, p.repayIn.amount - min debt p.repayIn.amount⟩]
  fee := [p.commission]
  burned := [⟨p.repayIn.denom, min debt p.repayIn.amount⟩]

namespace Engine

/-- What a user owes on a position, with interest up to now. -/
def settledDebt (e : Engine) (owner : Principal) (denom : Denom) : Result Nat := do
  let params ← e.collateralParams denom
  pure (← e.settledPosition owner params false).position.stableDebt.amount

/-- What a request moves according to the answer to it, if it is an answer to it. -/
def movement? (e : Engine) (sender : Principal) : Request → Response → Option Movement
  | .mint r, .mint q => some
      { sender, receiver := r.receiver.getD sender, debtor := sender
        paid := [q.backingIn, q.nativeIn]
        given := [q.mintOut]
        fee := [q.mintFee]
        minted := [⟨q.mintOut.denom, q.mintOut.amount + q.mintFee.amount⟩]
        burned := [q.nativeIn] }
  | .burn r, .burn q => some
      { sender, receiver := r.receiver.getD sender, debtor := sender
        paid := [r.burnIn]
        given := [q.backingOut, q.nativeOut]
        fee := [q.burnFee]
        minted := [q.nativeOut]
        burned := [⟨r.burnIn.denom, r.burnIn.amount - q.burnFee.amount⟩] }
  | .buyback r, .buyback q => some
      { sender, receiver := r.receiver.getD sender, debtor := sender
        paid := [r.nativeIn]
        given := [q.backingOut]
        fee := [q.buybackFee]
        burned := [r.nativeIn] }
  | .reback r, .reback q => some
      { sender, receiver := r.receiver.getD sender, debtor := sender
        paid := [r.backingIn]
        given := [q.nativeOut]
        fee := [q.rebackFee]
        minted := [⟨q.nativeOut.denom, q.nativeOut.amount + q.rebackFee.amount⟩] }
  | .borrow r, .borrow p => some
      { sender, receiver := r.receiver.getD sender, debtor := sender
        given := [r.mintOut]
        fee := [p.mintFee]
        minted := [⟨r.mintOut.denom, r.mintOut.amount + p.mintFee.amount⟩] }
  | .repay _, .repay p => some
      { sender, receiver := sender, debtor := sender
        paid := [p.repayIn]
        fee := [p.repayInterest]
        burned := [⟨p.repayIn.denom, p.repayIn.amount - p.repayInterest.amount⟩] }
  | .deposit r, .deposit => some
      { sender, receiver := r.receiver.getD sender, debtor := sender
        paid := [r.collateralIn, r.nativeIn] }
  | .redeem r, .redeem => some
      { sender, receiver := r.receiver.getD sender, debtor := sender
        given := [r.collateralOut, r.nativeOut] }
  | .liquidate r, .liquidate p =>
      (e.settledDebt r.debtor r.collateral.denom).toOption.map (r.movement sender p)
  | _, _ => none

end Engine

/-- The amounts answered are within what the request allows. A cap of zero on what a mint takes is
no cap. -/
def Request.Bounds : Request → Response → Prop
  | .mint r, .mint q =>
    (0 < r.backingInMax.amount → q.backingIn.AtMost r.backingInMax) ∧
      (0 < r.nativeInMax.amount → q.nativeIn.AtMost r.nativeInMax) ∧
      r.mintOutMin.AtMost q.mintOut
  | .burn r, .burn q => r.backingOutMin.AtMost q.backingOut ∧ r.nativeOutMin.AtMost q.nativeOut
  | .buyback r, .buyback q => r.backingOutMin.AtMost q.backingOut
  | .reback r, .reback q => r.nativeOutMin.AtMost q.nativeOut
  | .repay r, .repay p => p.repayIn.AtMost r.repayInMax
  | .liquidate r, .liquidate p =>
    p.repayIn.AtMost r.repayInMax ∧ p.collateralOut.denom = r.collateral.denom ∧
      p.commission.denom = r.collateral.denom ∧
      p.collateralOut.amount + p.commission.amount = r.collateral.amount
  | .borrow _, .borrow _ | .deposit _, .deposit | .redeem _, .redeem => True
  | _, _ => False

namespace Engine

variable {e : Engine} {sender : Principal} {plan : Plan}

theorem capped_le {amount : Nat} {cap : Coin} (positive : 0 < cap.amount) :
    capped amount cap ≤ cap.amount := by
  unfold capped
  rw [if_pos (by simpa [Coin.isPositive] using positive)]
  exact Nat.min_le_right amount cap.amount

/-- A mint takes no more than its caps, whichever of them binds. -/
theorem mintWithin_le_caps {mix : Mix} {backingPrice nativePrice : Decimal}
    {backingMax nativeMax : Coin} {backingMaxValue nativeMaxValue value : Decimal}
    {backingIn nativeIn : Nat}
    (legs : mintWithin mix backingPrice nativePrice backingMax nativeMax backingMaxValue
      nativeMaxValue = .ok (value, backingIn, nativeIn)) :
    (0 < backingMax.amount → backingIn ≤ backingMax.amount) ∧
      (0 < nativeMax.amount → nativeIn ≤ nativeMax.amount) := by
  cases mix with
  | fullBacking =>
    simp only [mintWithin, pure_ok, Prod.mk.injEq] at legs
    obtain ⟨-, rfl, rfl⟩ := legs
    exact ⟨fun _ => Nat.le_refl _, fun _ => Nat.zero_le _⟩
  | algorithmic =>
    simp only [mintWithin, pure_ok, Prod.mk.injEq] at legs
    obtain ⟨-, rfl, rfl⟩ := legs
    exact ⟨fun _ => Nat.zero_le _, fun _ => Nat.le_refl _⟩
  | fractional ratio =>
    simp only [mintWithin, fractionalMint, bind_ok] at legs
    obtain ⟨byBacking, -, rest, -, byNative, -, legs⟩ := legs
    -- The leg that binds takes its cap whole, and the other is held to its own.
    split at legs
    next =>
      simp only [bind_ok, pure_ok, Prod.mk.injEq] at legs
      obtain ⟨_, -, _, -, amount, -, -, rfl, rfl⟩ := legs
      exact ⟨fun _ => Nat.le_refl _, capped_le⟩
    next =>
      simp only [bind_ok, pure_ok, Prod.mk.injEq] at legs
      obtain ⟨_, -, amount, -, -, rfl, rfl⟩ := legs
      exact ⟨capped_le, fun _ => Nat.le_refl _⟩

/-! ### What a plan moves -/

/-- A plan answers what it moves, within the bounds of its request. -/
structure Reports (e : Engine) (sender : Principal) (request : Request) (plan : Plan)
    (m : Movement) : Prop where
  reported : e.movement? sender request plan.response = some m
  flow : ∀ account denom, batchFlow plan.moves account denom = m.change e.accounts account denom
  issue : ∀ denom, batchIssue plan.moves denom = m.issued denom
  bounds : request.Bounds plan.response

/-- A plan moves a movement if its batch has the same legs, in whatever order. -/
theorem Reports.of_batch {request : Request} {response : Response} {m : Movement}
    (answer : plan.response = response) (reported : e.movement? sender request response = some m)
    (legs : plan.moves.Perm (m.batch e.accounts)) (bounds : request.Bounds response) :
    e.Reports sender request plan m where
  reported := by rw [answer, reported]
  flow account denom :=
    (batchFlow_perm legs account denom).trans (m.batchFlow_batch e.accounts account denom)
  issue denom := (batchIssue_perm legs denom).trans (m.batchIssue_batch e.accounts denom)
  bounds := by rwa [answer]

theorem planMint_reports {r : MintRequest} (planned : e.planMint sender r = .ok plan) :
    ∃ m, e.Reports sender (.mint r) plan m := by
  obtain ⟨stable, q, _, _, quoted, enough, -, -, moves, -, -, answer⟩ := planMint_ok planned
  refine ⟨_, .of_batch answer rfl (moves ▸ .refl _) ?_⟩
  -- What the quote takes are the two legs, and each is within its own cap.
  obtain ⟨native, -, _, _, _, _, _, _, _, _, _, _, _, _, _, -, -, -, -, -, legs, -, -, -, -, -, -,
    -, -, rfl⟩ := mintQuote_ok quoted
  obtain ⟨backingCap, nativeCap⟩ := mintWithin_le_caps legs
  exact ⟨fun positive => ⟨rfl, backingCap positive⟩,
    fun positive => ⟨native.symm, nativeCap positive⟩, ⟨stable, enough⟩⟩

theorem planBurn_reports {r : BurnRequest} (planned : e.planBurn sender r = .ok plan) :
    ∃ m, e.Reports sender (.burn r) plan m := by
  obtain ⟨native, q, _, _, quoted, enough, enough', -, -, -, moves, -, -, answer⟩ :=
    planBurn_ok planned
  refine ⟨_, .of_batch answer rfl ?_ ?_⟩
  · -- The fee leaves before the native token is minted.
    rw [moves]
    exact .cons _ (.cons _ (.trans (.swap _ _ _) (.cons _ (.swap _ _ _))))
  · obtain ⟨-, -, _, _, _, _, _, _, _, _, -, -, -, -, -, -, -, -, -, -, rfl⟩ := burnQuote_ok quoted
    exact ⟨⟨rfl, enough⟩, ⟨native, enough'⟩⟩

theorem planBuyback_reports {r : BuybackRequest} (planned : e.planBuyback sender r = .ok plan) :
    ∃ m, e.Reports sender (.buyback r) plan m := by
  obtain ⟨q, _, _, quoted, enough, -, -, moves, -, -, answer⟩ := planBuyback_ok planned
  refine ⟨_, .of_batch answer rfl (moves ▸ .refl _) ?_⟩
  obtain ⟨-, _, _, _, _, _, _, _, _, -, -, -, -, -, -, -, -, -, -, -, -, rfl⟩ :=
    buybackQuote_ok quoted
  exact ⟨rfl, enough⟩

theorem planReback_reports {r : RebackRequest} (planned : e.planReback sender r = .ok plan) :
    ∃ m, e.Reports sender (.reback r) plan m := by
  obtain ⟨native, q, _, _, quoted, enough, -, -, moves, -, -, answer⟩ := planReback_ok planned
  refine ⟨_, .of_batch answer rfl (moves ▸ .refl _) ?_⟩
  obtain ⟨_, _, _, _, _, _, _, _, _, _, _, -, -, -, -, -, -, -, -, -, -, -, -, -, -, rfl⟩ :=
    rebackQuote_ok quoted
  exact ⟨native, enough⟩

theorem planDeposit_reports {r : DepositRequest} (planned : e.planDeposit sender r = .ok plan) :
    ∃ m, e.Reports sender (.deposit r) plan m := by
  obtain ⟨_, -, moves, -, -, answer⟩ := planDeposit_ok planned
  exact ⟨_, .of_batch answer rfl (moves ▸ .refl _) trivial⟩

theorem planRedeem_reports {r : RedeemRequest} (planned : e.planRedeem sender r = .ok plan) :
    ∃ m, e.Reports sender (.redeem r) plan m := by
  obtain ⟨_, -, moves, -, -, answer⟩ := planRedeem_ok planned
  exact ⟨_, .of_batch answer rfl (moves ▸ .refl _) trivial⟩

theorem planBorrow_reports {r : BorrowRequest} (planned : e.planBorrow sender r = .ok plan) :
    ∃ m, e.Reports sender (.borrow r) plan m := by
  obtain ⟨_, _, -, moves, -, -, answer⟩ := planBorrow_ok planned
  exact ⟨_, .of_batch answer rfl (moves ▸ .refl _) trivial⟩

theorem planRepay_reports {r : RepayRequest} (planned : e.planRepay sender r = .ok plan) :
    ∃ m, e.Reports sender (.repay r) plan m := by
  obtain ⟨_, _, computed, moves, -, -, answer⟩ := planRepay_ok planned
  obtain ⟨stable, _, _, repayIn, _, -, -, -, capped, -, rfl, -⟩ := afterRepay_ok computed
  refine ⟨_, .of_batch answer rfl (moves ▸ .refl _) ⟨stable.symm, ?_⟩⟩
  rw [capped]
  exact Nat.min_le_right _ _

theorem movement?_liquidate {r : LiquidateRequest} {p : LiquidateResponse} {debt : Nat}
    (owed : e.settledDebt r.debtor r.collateral.denom = .ok debt) :
    e.movement? sender (.liquidate r) (.liquidate p) = some (r.movement sender p debt) := by
  simp [movement?, owed, Except.toOption]

theorem planLiquidate_reports {r : LiquidateRequest}
    (planned : e.planLiquidate sender r = .ok plan) :
    ∃ m, e.Reports sender (.liquidate r) plan m := by
  obtain ⟨_, _, computed, moves, -, -, answer⟩ := planLiquidate_ok planned
  obtain ⟨stable, risk, _, settled, _, _, commission, _, _, repayIn, _, _, known, -, loaded, -, -,
    -, -, -, -, -, within, covered, rfl, -, rfl, -⟩ := afterLiquidate_ok computed
  have owed : e.settledDebt r.debtor r.collateral.denom
      = .ok settled.position.stableDebt.amount := by
    simp only [settledDebt, bind_ok, pure_ok]
    exact ⟨risk, known, settled, loaded, rfl⟩
  refine ⟨_, .of_batch answer (movement?_liquidate owed) (moves ▸ .refl _) ?_⟩
  exact ⟨⟨stable.symm, within⟩, rfl, rfl, Nat.sub_add_cancel covered⟩

/-- Every plan answers what it moves. -/
theorem plan_reports {request : Request} (planned : e.plan sender request = .ok plan) :
    ∃ m, e.Reports sender request plan m := by
  cases request with
  | mint => exact planMint_reports planned
  | burn => exact planBurn_reports planned
  | buyback => exact planBuyback_reports planned
  | reback => exact planReback_reports planned
  | borrow => exact planBorrow_reports planned
  | repay => exact planRepay_reports planned
  | deposit => exact planDeposit_reports planned
  | redeem => exact planRedeem_reports planned
  | liquidate => exact planLiquidate_reports planned

/-! ### Transactions -/

/-- The balances and the supplies have changed as a movement says. -/
structure Moved (e : Engine) (m : Movement) (after : Engine) : Prop where
  balance : ∀ account denom, (after.ledger.balance account denom : Int)
    = e.ledger.balance account denom + m.change e.accounts account denom
  supply : e.ledger.Conserved →
    ∀ denom, (after.ledger.supply denom : Int) = e.ledger.supply denom + m.issued denom

/-- A request that succeeds answers what was moved, zero coins or not. -/
theorem transact_moved {request : Request} {response : Response}
    (returned : (e.transact sender request).result = .ok response) :
    ∃ m, e.movement? sender request response = some m ∧
      e.Moved m (e.transact sender request).engine ∧ request.Bounds response := by
  obtain ⟨plan, ledger, planned, applied, rfl, carried⟩ := transact_ok returned
  obtain ⟨m, reported, flow, issue, bounds⟩ := plan_reports planned
  have shifted := Ledger.apply_shifted applied
  refine ⟨m, reported, ⟨?_, ?_⟩, bounds⟩
  -- What is applied is the batch less its zero coins, which move nothing.
  · intro account denom
    rw [carried, ← flow, ← batchFlow_dropZeros]
    exact shifted.balance account denom
  · intro conserved denom
    rw [carried, ← issue, ← batchIssue_dropZeros]
    exact shifted.supply conserved denom

/-- After every run, a transaction that succeeds moves what it answers. Every balance of every
account changes by what the account is named for as sender, receiver, debtor, fee collector or
module account and by nothing else, every supply by what is minted less what is burned, and the
amounts are within the bounds of the request. -/
theorem run_movesAnswer (params : Params) (accounts : ModuleAccounts) (actions : List Action)
    (sender : Principal) {request : Request} {response : Response} :
    let e := (fresh params accounts).run actions
    let after := (e.transact sender request).engine
    (e.transact sender request).result = .ok response →
    ∃ m, e.movement? sender request response = some m ∧
      (∀ account denom, (after.ledger.balance account denom : Int)
        = e.ledger.balance account denom + m.change accounts account denom) ∧
      (∀ denom, (after.ledger.supply denom : Int)
        = e.ledger.supply denom + m.issued denom) ∧
      request.Bounds response := by
  intro e after returned
  have start := fresh_sound params accounts
  have sound : e.Sound := run_sound start actions
  have same : e.accounts = accounts := run_accounts start actions
  obtain ⟨m, reported, moved, bounds⟩ := transact_moved returned
  refine ⟨m, reported, ?_, moved.supply sound.conserved, bounds⟩
  -- No action names other accounts, so the ones of the start are meant.
  intro account denom
  rw [← same]
  exact moved.balance account denom

/-- Once ether is worth so much that the liquidator pays more than is owed, the borrower gets the
rest, and pays nothing for it. -/
theorem run_movesAnswer_refund :
    let borrower : Principal := ⟨[1], by decide⟩
    let liquidator : Principal := ⟨[2], by decide⟩
    let history := loanRun.dropLast ++ [.setRate "ether" (percent 60)]
    let e := (fresh .initial .initial).run history
    let request := .liquidate ⟨none, borrower, ⟨"ether", 1000⟩, ⟨stableDenom, 1000⟩⟩
    let response := .liquidate ⟨⟨stableDenom, 540⟩, ⟨"ether", 990⟩, ⟨"ether", 10⟩⟩
    let after := (e.transact liquidator request).engine
    (e.transact liquidator request).result = .ok response ∧
      ∃ m, e.movement? liquidator request response = some m ∧
        m.change .initial (.user borrower) stableDenom = 19 ∧
        (after.ledger.balance (.user borrower) stableDenom : Int)
          = e.ledger.balance (.user borrower) stableDenom + 19 := by
  intro borrower liquidator history e request response after
  have returned : (e.transact liquidator request).result = .ok response := by decide +kernel
  obtain ⟨m, reported, balance, -, -⟩ :=
    run_movesAnswer .initial .initial history liquidator returned
  have gained : (e.movement? liquidator request response).map
      (fun m => m.change .initial (.user borrower) stableDenom) = some 19 := by
    decide +kernel
  rw [reported] at gained
  have refunded := Option.some.inj gained
  exact ⟨returned, m, reported, refunded, refunded ▸ balance (.user borrower) stableDenom⟩

end Engine

end Stablecoin
