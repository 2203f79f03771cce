import Stablecoin.Engine.Transact
import Stablecoin.Proofs.RecordChange
import Stablecoin.Proofs.SwapQuotes

/-!
# What a plan says

Every plan opened into the quote or calculation behind it, the coins that it moves, and the change
of records that it writes.
-/
namespace Stablecoin

/-- By how much a swap changes a pool, and the total with it. -/
structure BackingChange where
  backing : Int := 0
  stable : Int := 0
  native : Int := 0

/-- The records after a swap; the counters change alike in the pool and in the total. -/
structure BackingRecords.Changed (before : BackingRecords) (change : BackingChange)
    (after : BackingRecords) : Prop where
  denom : after.pool.backing.denom = before.pool.backing.denom
  backing : (after.pool.backing.amount : Int) = before.pool.backing.amount + change.backing
  poolStable : after.pool.stableMinted.amount = before.pool.stableMinted.amount + change.stable
  totalStable : after.total.stableMinted.amount = before.total.stableMinted.amount + change.stable
  poolNative : after.pool.nativeBurned.amount = before.pool.nativeBurned.amount + change.native
  totalNative : after.total.nativeBurned.amount = before.total.nativeBurned.amount + change.native

namespace Engine

variable {e : Engine} {sender : Principal} {plan : Plan}

/-! ### Swaps -/

theorem planMint_ok {r : MintRequest} (planned : e.planMint sender r = .ok plan) :
    r.mintOutMin.denom = stableDenom ∧ ∃ q before after,
      e.mintQuote r.backingInMax r.nativeInMax r.fullBacking = .ok q ∧
      r.mintOutMin.amount ≤ q.mintOut.amount ∧ e.backing q.backingIn.denom = .ok before ∧
      before.Changed
        { backing := q.backingIn.amount
          stable := q.mintOut.amount + q.mintFee.amount
          native := q.nativeIn.amount } after ∧
      plan.moves =
        [.sendToModule sender e.accounts.module [q.backingIn, q.nativeIn],
          .burn e.accounts.module [q.nativeIn],
          .mint e.accounts.module [⟨q.mintOut.denom, q.mintOut.amount + q.mintFee.amount⟩],
          .sendToUser e.accounts.module (r.receiver.getD sender) [q.mintOut],
          .sendBetweenModules e.accounts.module e.accounts.feeCollector [q.mintFee]] ∧
      plan.update = .backing after ∧
      plan.event = .mintBySwap sender (r.receiver.getD sender) [q.backingIn, q.nativeIn] q.mintOut
        q.mintFee ∧
      plan.response = .mint q := by
  simp only [planMint, bind_ok, Coin.requireDenom_ok, requireAtLeast, require_ok, Coin.add_ok,
    pure_ok] at planned
  obtain ⟨_, stable, q, quoted, _, enough, _, ⟨_, rfl⟩, before, loaded, written⟩ := planned
  -- What is left is the fields of the records that are written, each with its range check.
  simp only [SignedCoin.add, SignedCoin.move_ok] at written
  obtain ⟨_, ⟨_, rfl⟩, _, ⟨_, rfl⟩, _, ⟨_, rfl⟩, _, ⟨_, rfl⟩, _, ⟨_, rfl⟩, rfl⟩ := written
  refine ⟨stable, q, before, _, quoted, enough, loaded, ?_, rfl, rfl, rfl, rfl⟩
  constructor <;> simp

theorem planBurn_ok {r : BurnRequest} (planned : e.planBurn sender r = .ok plan) :
    r.nativeOutMin.denom = nativeDenom ∧ ∃ q before after,
      e.burnQuote r.burnIn r.backingOutMin.denom = .ok q ∧
      r.backingOutMin.amount ≤ q.backingOut.amount ∧ r.nativeOutMin.amount ≤ q.nativeOut.amount ∧
      q.burnFee.amount ≤ r.burnIn.amount ∧ e.backing r.backingOutMin.denom = .ok before ∧
      before.Changed
        { backing := -q.backingOut.amount
          stable := -(r.burnIn.amount - q.burnFee.amount)
          native := -q.nativeOut.amount } after ∧
      plan.moves =
        [.sendToModule sender e.accounts.module [r.burnIn],
          .burn e.accounts.module [⟨r.burnIn.denom, r.burnIn.amount - q.burnFee.amount⟩],
          .sendBetweenModules e.accounts.module e.accounts.feeCollector [q.burnFee],
          .mint e.accounts.module [q.nativeOut],
          .sendToUser e.accounts.module (r.receiver.getD sender) [q.backingOut, q.nativeOut]] ∧
      plan.update = .backing after ∧
      plan.event = .burnBySwap sender (r.receiver.getD sender) r.burnIn [q.backingOut, q.nativeOut]
        q.burnFee ∧
      plan.response = .burn q := by
  simp only [planBurn, bind_ok, Coin.requireDenom_ok, requireAtLeast, require_ok] at planned
  obtain ⟨_, native, q, quoted, _, enough, _, enough', _, kept, before, loaded, written⟩ := planned
  -- The counters go down and may pass zero, so they are signed.
  simp only [Coin.sub_ok, SignedCoin.sub, SignedCoin.move_ok, pure_ok] at kept written
  obtain ⟨covered, rfl⟩ := kept
  obtain ⟨_, ⟨_, rfl⟩, _, ⟨_, rfl⟩, _, ⟨_, rfl⟩, _, ⟨_, rfl⟩, _, ⟨_, rfl⟩, rfl⟩ := written
  refine ⟨native, q, before, _, quoted, enough, enough', covered, loaded, ?_, rfl, rfl, rfl, rfl⟩
  constructor <;> dsimp only <;> omega

theorem planBuyback_ok {r : BuybackRequest} (planned : e.planBuyback sender r = .ok plan) :
    ∃ q before after, e.buybackQuote r.nativeIn r.backingOutMin.denom = .ok q ∧
      r.backingOutMin.amount ≤ q.backingOut.amount ∧
      e.backing r.backingOutMin.denom = .ok before ∧
      before.Changed
        { backing := -(q.backingOut.amount + q.buybackFee.amount), native := r.nativeIn.amount }
        after ∧
      plan.moves =
        [.sendToModule sender e.accounts.module [r.nativeIn],
          .burn e.accounts.module [r.nativeIn],
          .sendToUser e.accounts.module (r.receiver.getD sender) [q.backingOut],
          .sendBetweenModules e.accounts.module e.accounts.feeCollector [q.buybackFee]] ∧
      plan.update = .backing after ∧
      plan.event = .buyBacking sender (r.receiver.getD sender) r.nativeIn q.backingOut
        q.buybackFee ∧
      plan.response = .buyback q := by
  simp only [planBuyback, bind_ok, requireAtLeast, require_ok, Coin.sub_ok, SignedCoin.add,
    SignedCoin.move_ok, pure_ok] at planned
  obtain ⟨q, quoted, _, enough, before, loaded, _, ⟨_, rfl⟩, _, ⟨_, rfl⟩, _, ⟨_, rfl⟩, _, ⟨_, rfl⟩,
    rfl⟩ := planned
  refine ⟨q, before, _, quoted, enough, loaded, ?_, rfl, rfl, rfl, rfl⟩
  constructor <;> dsimp only at * <;> omega

theorem planReback_ok {r : RebackRequest} (planned : e.planReback sender r = .ok plan) :
    r.nativeOutMin.denom = nativeDenom ∧ ∃ q before after, e.rebackQuote r.backingIn = .ok q ∧
      r.nativeOutMin.amount ≤ q.nativeOut.amount ∧ e.backing r.backingIn.denom = .ok before ∧
      before.Changed
        { backing := r.backingIn.amount, native := -(q.nativeOut.amount + q.rebackFee.amount) }
        after ∧
      plan.moves =
        [.sendToModule sender e.accounts.module [r.backingIn],
          .mint e.accounts.module [⟨q.nativeOut.denom, q.nativeOut.amount + q.rebackFee.amount⟩],
          .sendToUser e.accounts.module (r.receiver.getD sender) [q.nativeOut],
          .sendBetweenModules e.accounts.module e.accounts.feeCollector [q.rebackFee]] ∧
      plan.update = .backing after ∧
      plan.event = .sellBacking sender (r.receiver.getD sender) r.backingIn q.nativeOut
        q.rebackFee ∧
      plan.response = .reback q := by
  simp only [planReback, bind_ok, Coin.requireDenom_ok, requireAtLeast, require_ok, Coin.add_ok,
    SignedCoin.sub, SignedCoin.move_ok, pure_ok] at planned
  obtain ⟨_, native, q, quoted, _, enough, _, ⟨_, rfl⟩, before, loaded, _, ⟨_, rfl⟩, _, ⟨_, rfl⟩, _,
    ⟨_, rfl⟩, rfl⟩ := planned
  refine ⟨native, q, before, _, quoted, enough, loaded, ?_, rfl, rfl, rfl, rfl⟩
  constructor <;> dsimp only <;> omega

/-! ### Positions -/

theorem planDeposit_ok {r : DepositRequest} (planned : e.planDeposit sender r = .ok plan) :
    ∃ after, e.afterDeposit (r.receiver.getD sender) r.collateralIn r.nativeIn = .ok after ∧
      plan.moves = [.sendToModule sender e.accounts.module [r.collateralIn, r.nativeIn]] ∧
      plan.update = .position after ∧
      plan.event = .depositCollateral sender (r.receiver.getD sender)
        [r.collateralIn, r.nativeIn] ∧
      plan.response = .deposit := by
  simp only [planDeposit, bind_ok, pure_ok] at planned
  obtain ⟨after, computed, rfl⟩ := planned
  exact ⟨after, computed, rfl, rfl, rfl, rfl⟩

theorem planRedeem_ok {r : RedeemRequest} (planned : e.planRedeem sender r = .ok plan) :
    ∃ after, e.afterRedeem sender r.collateralOut r.nativeOut = .ok after ∧
      plan.moves = [.sendToUser e.accounts.module (r.receiver.getD sender)
        [r.collateralOut, r.nativeOut]] ∧
      plan.update = .position after ∧
      plan.event = .redeemCollateral sender (r.receiver.getD sender)
        [r.collateralOut, r.nativeOut] ∧
      plan.response = .redeem := by
  simp only [planRedeem, bind_ok, pure_ok] at planned
  obtain ⟨after, computed, rfl⟩ := planned
  exact ⟨after, computed, rfl, rfl, rfl, rfl⟩

theorem planBorrow_ok {r : BorrowRequest} (planned : e.planBorrow sender r = .ok plan) :
    ∃ fee after, e.afterBorrow sender r.denom r.mintOut = .ok (fee, after) ∧
      plan.moves =
        [.mint e.accounts.module [⟨r.mintOut.denom, r.mintOut.amount + fee.amount⟩],
          .sendToUser e.accounts.module (r.receiver.getD sender) [r.mintOut],
          .sendBetweenModules e.accounts.module e.accounts.feeCollector [fee]] ∧
      plan.update = .position after ∧
      plan.event = .mintByCollateral sender (r.receiver.getD sender) r.mintOut fee ∧
      plan.response = .borrow ⟨fee⟩ := by
  simp only [planBorrow, bind_ok, Coin.add_ok, pure_ok] at planned
  obtain ⟨⟨fee, after⟩, computed, _, ⟨_, rfl⟩, rfl⟩ := planned
  exact ⟨fee, after, computed, rfl, rfl, rfl, rfl⟩

theorem planRepay_ok {r : RepayRequest} (planned : e.planRepay sender r = .ok plan) :
    ∃ parts after, e.afterRepay sender r.denom r.repayInMax = .ok (parts, after) ∧
      plan.moves =
        [.sendToModule sender e.accounts.module [parts.repayIn],
          .burn e.accounts.module [parts.repayPrincipal],
          .sendBetweenModules e.accounts.module e.accounts.feeCollector [parts.repayInterest]] ∧
      plan.update = .position after ∧
      plan.event = .burnByCollateral sender r.denom parts.repayIn parts.repayInterest ∧
      plan.response = .repay ⟨parts.repayIn, parts.repayInterest⟩ := by
  simp only [planRepay, bind_ok, pure_ok] at planned
  obtain ⟨⟨parts, after⟩, computed, rfl⟩ := planned
  exact ⟨parts, after, computed, rfl, rfl, rfl, rfl⟩

theorem planLiquidate_ok {r : LiquidateRequest} (planned : e.planLiquidate sender r = .ok plan) :
    ∃ parts after, e.afterLiquidate r.debtor r.collateral r.repayInMax = .ok (parts, after) ∧
      plan.moves =
        [.sendToModule sender e.accounts.module [parts.repayIn],
          .burn e.accounts.module [parts.repayDebt],
          .sendToUser e.accounts.module r.debtor [parts.refund],
          .sendToUser e.accounts.module (r.receiver.getD sender) [parts.collateralOut],
          .sendBetweenModules e.accounts.module e.accounts.feeCollector [parts.commission]] ∧
      plan.update = .position after ∧
      plan.event = .liquidateCollateral sender (r.receiver.getD sender) r.debtor parts.repayIn
        parts.collateralOut parts.commission ∧
      plan.response = .liquidate ⟨parts.repayIn, parts.collateralOut, parts.commission⟩ := by
  simp only [planLiquidate, bind_ok, pure_ok] at planned
  obtain ⟨⟨parts, after⟩, computed, rfl⟩ := planned
  exact ⟨parts, after, computed, rfl, rfl, rfl, rfl⟩

end Engine

end Stablecoin
