import Stablecoin.Engine.Plan
import Stablecoin.Swap.Buyback
import Stablecoin.Swap.Mint
import Stablecoin.Swap.Reback

/-!
# Plans of the swap transactions

Minting and burning by swap, buying surplus backing and selling backing while it is short. What is
minted or burned against a pool always counts the fee with it where the fee comes out of the mint.
-/
namespace Stablecoin

/-- Refuses a payout below the caller's minimum. -/
def requireAtLeast (actual minimum : Coin) : Result Unit :=
  require (minimum.amount ≤ actual.amount) (.slippage actual minimum)

namespace Engine

/-- Mints stable units for backing and native token, which is burned. -/
def planMint (e : Engine) (sender : Principal) (r : MintRequest) : Result Plan := do
  let receiver := r.receiver.getD sender
  r.mintOutMin.requireDenom stableDenom
  let q ← e.mintQuote r.backingInMax r.nativeInMax r.fullBacking
  requireAtLeast q.mintOut r.mintOutMin
  -- The fee is minted with the payout, and both count as minted.
  let mintTotal ← q.mintOut.add q.mintFee.amount
  let ⟨total, pool⟩ ← e.backing q.backingIn.denom
  let pool : BackingPool :=
    { backing := ← pool.backing.add q.backingIn.amount
      stableMinted := ← pool.stableMinted.add mintTotal.amount
      nativeBurned := ← pool.nativeBurned.add q.nativeIn.amount }
  let total : BackingTotal :=
    { total with
      stableMinted := ← total.stableMinted.add mintTotal.amount
      nativeBurned := ← total.nativeBurned.add q.nativeIn.amount }
  let module := e.accounts.module
  pure
    { moves :=
        [.sendToModule sender module [q.backingIn, q.nativeIn], .burn module [q.nativeIn],
          .mint module [mintTotal], .sendToUser module receiver [q.mintOut],
          .sendBetweenModules module e.accounts.feeCollector [q.mintFee]]
      update := .backing ⟨total, pool⟩
      event := .mintBySwap sender receiver [q.backingIn, q.nativeIn] q.mintOut q.mintFee
      notice := sender.text ++ " paid " ++ q.backingIn.text ++ " and " ++ q.nativeIn.text ++
        " for " ++ q.mintOut.text ++ " (fee " ++ q.mintFee.text ++ ")"
      response := .mint q }

/-- Burns stable units for backing and newly minted native token. -/
def planBurn (e : Engine) (sender : Principal) (r : BurnRequest) : Result Plan := do
  let receiver := r.receiver.getD sender
  r.nativeOutMin.requireDenom nativeDenom
  let denom := r.backingOutMin.denom
  let q ← e.burnQuote r.burnIn denom
  requireAtLeast q.backingOut r.backingOutMin
  requireAtLeast q.nativeOut r.nativeOutMin
  -- The fee is paid in circulating units, so only the rest is burned.
  let burned ← r.burnIn.sub q.burnFee.amount
  let ⟨total, pool⟩ ← e.backing denom
  let pool : BackingPool :=
    { backing := ← pool.backing.sub q.backingOut.amount
      stableMinted := ← pool.stableMinted.sub burned.amount
      nativeBurned := ← pool.nativeBurned.sub q.nativeOut.amount }
  let total : BackingTotal :=
    { total with
      stableMinted := ← total.stableMinted.sub burned.amount
      nativeBurned := ← total.nativeBurned.sub q.nativeOut.amount }
  let module := e.accounts.module
  pure
    { moves :=
        [.sendToModule sender module [r.burnIn], .burn module [burned],
          .sendBetweenModules module e.accounts.feeCollector [q.burnFee],
          .mint module [q.nativeOut], .sendToUser module receiver [q.backingOut, q.nativeOut]]
      update := .backing ⟨total, pool⟩
      event := .burnBySwap sender receiver r.burnIn [q.backingOut, q.nativeOut] q.burnFee
      notice := sender.text ++ " burned " ++ r.burnIn.text ++ " for " ++ q.backingOut.text ++
        " and " ++ q.nativeOut.text ++ " (fee " ++ q.burnFee.text ++ ")"
      response := .burn q }

/-- Buys surplus backing with native token, which is burned. -/
def planBuyback (e : Engine) (sender : Principal) (r : BuybackRequest) : Result Plan := do
  let receiver := r.receiver.getD sender
  let denom := r.backingOutMin.denom
  let q ← e.buybackQuote r.nativeIn denom
  requireAtLeast q.backingOut r.backingOutMin
  -- The fee is in backing and leaves the pool with the payout.
  let ⟨total, pool⟩ ← e.backing denom
  let pool : BackingPool :=
    { pool with
      backing := ← (← pool.backing.sub q.backingOut.amount).sub q.buybackFee.amount
      nativeBurned := ← pool.nativeBurned.add r.nativeIn.amount }
  let total : BackingTotal :=
    { total with nativeBurned := ← total.nativeBurned.add r.nativeIn.amount }
  let module := e.accounts.module
  pure
    { moves :=
        [.sendToModule sender module [r.nativeIn], .burn module [r.nativeIn],
          .sendToUser module receiver [q.backingOut],
          .sendBetweenModules module e.accounts.feeCollector [q.buybackFee]]
      update := .backing ⟨total, pool⟩
      event := .buyBacking sender receiver r.nativeIn q.backingOut q.buybackFee
      notice := sender.text ++ " bought " ++ q.backingOut.text ++ " with " ++ r.nativeIn.text ++
        " (fee " ++ q.buybackFee.text ++ ")"
      response := .buyback q }

/-- Sells backing to the pool for newly minted native token, which also covers the fee. -/
def planReback (e : Engine) (sender : Principal) (r : RebackRequest) : Result Plan := do
  let receiver := r.receiver.getD sender
  r.nativeOutMin.requireDenom nativeDenom
  let q ← e.rebackQuote r.backingIn
  requireAtLeast q.nativeOut r.nativeOutMin
  -- What is minted covers the payout and the fee.
  let minted ← q.nativeOut.add q.rebackFee.amount
  let ⟨total, pool⟩ ← e.backing r.backingIn.denom
  let pool : BackingPool :=
    { pool with
      backing := ← pool.backing.add r.backingIn.amount
      nativeBurned := ← pool.nativeBurned.sub minted.amount }
  let total : BackingTotal :=
    { total with nativeBurned := ← total.nativeBurned.sub minted.amount }
  let module := e.accounts.module
  pure
    { moves :=
        [.sendToModule sender module [r.backingIn], .mint module [minted],
          .sendToUser module receiver [q.nativeOut],
          .sendBetweenModules module e.accounts.feeCollector [q.rebackFee]]
      update := .backing ⟨total, pool⟩
      event := .sellBacking sender receiver r.backingIn q.nativeOut q.rebackFee
      notice := sender.text ++ " sold " ++ r.backingIn.text ++ " for " ++ q.nativeOut.text ++
        " (fee " ++ q.rebackFee.text ++ ")"
      response := .reback q }

end Engine

end Stablecoin
