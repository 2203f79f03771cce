import Stablecoin.Collateral.Debt
import Stablecoin.Collateral.Liquidation
import Stablecoin.Engine.Plan

/-!
# Plans of the collateral transactions

Depositing, redeeming, borrowing, repaying and liquidating. A loan's fee is minted with it; the
interest part of a repayment goes to the fee collector and the rest is burned.
-/
namespace Stablecoin.Engine

/-- Adds collateral and native token to the receiver's position. -/
def planDeposit (e : Engine) (sender : Principal) (r : DepositRequest) : Result Plan := do
  let receiver := r.receiver.getD sender
  let records ← e.afterDeposit receiver r.collateralIn r.nativeIn
  pure
    { moves := [.sendToModule sender e.accounts.module [r.collateralIn, r.nativeIn]]
      update := .position records
      event := .depositCollateral sender receiver [r.collateralIn, r.nativeIn]
      notice := sender.text ++ " deposited " ++ r.collateralIn.text ++ " and " ++
        r.nativeIn.text ++ " for " ++ receiver.text
      response := .deposit }

/-- Takes collateral and native token out of the sender's position. -/
def planRedeem (e : Engine) (sender : Principal) (r : RedeemRequest) : Result Plan := do
  let receiver := r.receiver.getD sender
  let records ← e.afterRedeem sender r.collateralOut r.nativeOut
  pure
    { moves := [.sendToUser e.accounts.module receiver [r.collateralOut, r.nativeOut]]
      update := .position records
      event := .redeemCollateral sender receiver [r.collateralOut, r.nativeOut]
      notice := sender.text ++ " redeemed " ++ r.collateralOut.text ++ " and " ++
        r.nativeOut.text
      response := .redeem }

/-- Borrows stable units against the sender's position. -/
def planBorrow (e : Engine) (sender : Principal) (r : BorrowRequest) : Result Plan := do
  let receiver := r.receiver.getD sender
  let (mintFee, records) ← e.afterBorrow sender r.denom r.mintOut
  let mintTotal ← r.mintOut.add mintFee.amount
  let module := e.accounts.module
  pure
    { moves :=
        [.mint module [mintTotal], .sendToUser module receiver [r.mintOut],
          .sendBetweenModules module e.accounts.feeCollector [mintFee]]
      update := .position records
      event := .mintByCollateral sender receiver r.mintOut mintFee
      notice := sender.text ++ " borrowed " ++ r.mintOut.text ++ " against " ++ r.denom ++
        " (fee " ++ mintFee.text ++ ")"
      response := .borrow ⟨mintFee⟩ }

/-- Repays debt of the sender's position, interest first. -/
def planRepay (e : Engine) (sender : Principal) (r : RepayRequest) : Result Plan := do
  let (parts, records) ← e.afterRepay sender r.denom r.repayInMax
  let module := e.accounts.module
  pure
    { moves :=
        [.sendToModule sender module [parts.repayIn], .burn module [parts.repayPrincipal],
          .sendBetweenModules module e.accounts.feeCollector [parts.repayInterest]]
      update := .position records
      event := .burnByCollateral sender r.denom parts.repayIn parts.repayInterest
      notice := sender.text ++ " repaid " ++ parts.repayIn.text ++ " of " ++ r.denom ++
        " debt (" ++ parts.repayInterest.text ++ " interest)"
      response := .repay ⟨parts.repayIn, parts.repayInterest⟩ }

/-- Buys collateral of a debtor. All that reduces the debt is burned. -/
def planLiquidate (e : Engine) (sender : Principal) (r : LiquidateRequest) : Result Plan := do
  let receiver := r.receiver.getD sender
  let (parts, records) ← e.afterLiquidate r.debtor r.collateral r.repayInMax
  -- What is paid above the debt goes to the debtor, not back to the liquidator.
  let module := e.accounts.module
  pure
    { moves :=
        [.sendToModule sender module [parts.repayIn], .burn module [parts.repayDebt],
          .sendToUser module r.debtor [parts.refund],
          .sendToUser module receiver [parts.collateralOut],
          .sendBetweenModules module e.accounts.feeCollector [parts.commission]]
      update := .position records
      event := .liquidateCollateral sender receiver r.debtor parts.repayIn parts.collateralOut
        parts.commission
      notice := sender.text ++ " liquidated " ++ r.collateral.text ++ " of " ++ r.debtor.text ++
        " for " ++ parts.repayIn.text ++ " (commission " ++ parts.commission.text ++ ")"
      response := .liquidate ⟨parts.repayIn, parts.collateralOut, parts.commission⟩ }

end Stablecoin.Engine
