import Stablecoin.Coin
import Stablecoin.Principal.Basic

/-!
# Requests

What users ask of the engine, the quotes it computes for them, and what it answers. Payouts go to
the sender unless a request names another receiver.
-/
namespace Stablecoin

/-- Mint stable units for at most the given amounts of backing and native token. -/
structure MintRequest where
  receiver : Option Principal
  mintOutMin : Coin
  backingInMax : Coin
  nativeInMax : Coin
  /-- Pay with backing alone, whatever the backing ratio. -/
  fullBacking : Bool
  deriving DecidableEq, Repr

/-- Burn stable units for backing and native token. -/
structure BurnRequest where
  receiver : Option Principal
  burnIn : Coin
  backingOutMin : Coin
  nativeOutMin : Coin
  deriving DecidableEq, Repr

/-- Buy surplus backing with native token. -/
structure BuybackRequest where
  receiver : Option Principal
  nativeIn : Coin
  backingOutMin : Coin
  deriving DecidableEq, Repr

/-- Sell backing to the pool while backing is short. -/
structure RebackRequest where
  receiver : Option Principal
  backingIn : Coin
  nativeOutMin : Coin
  deriving DecidableEq, Repr

/-- Borrow stable units against the sender's position. -/
structure BorrowRequest where
  receiver : Option Principal
  denom : Denom
  mintOut : Coin
  deriving DecidableEq, Repr

/-- Repay debt of the sender's position. -/
structure RepayRequest where
  denom : Denom
  repayInMax : Coin
  deriving DecidableEq, Repr

/-- Add collateral and native token to the receiver's position. -/
structure DepositRequest where
  receiver : Option Principal
  collateralIn : Coin
  nativeIn : Coin
  deriving DecidableEq, Repr

/-- Take collateral and native token out of the sender's position. -/
structure RedeemRequest where
  receiver : Option Principal
  collateralOut : Coin
  nativeOut : Coin
  deriving DecidableEq, Repr

/-- Buy collateral of a debtor whose debt has reached the liquidation threshold. -/
structure LiquidateRequest where
  receiver : Option Principal
  debtor : Principal
  collateral : Coin
  repayInMax : Coin
  deriving DecidableEq, Repr

/-- What a mint of a given amount takes. -/
structure MintCost where
  backingIn : Coin
  nativeIn : Coin
  mintFee : Coin
  deriving DecidableEq, Repr

/-- What a mint takes and gives. -/
structure MintQuote where
  backingIn : Coin
  nativeIn : Coin
  mintOut : Coin
  mintFee : Coin
  deriving DecidableEq, Repr

/-- What has to be burned for given payouts. -/
structure BurnCost where
  burnIn : Coin
  backingOut : Coin
  nativeOut : Coin
  burnFee : Coin
  deriving DecidableEq, Repr

/-- What a burn gives. -/
structure BurnQuote where
  backingOut : Coin
  nativeOut : Coin
  burnFee : Coin
  deriving DecidableEq, Repr

/-- What a purchase of surplus backing takes. -/
structure BuybackCost where
  nativeIn : Coin
  buybackFee : Coin
  deriving DecidableEq, Repr

/-- What a purchase of surplus backing gives. -/
structure BuybackQuote where
  backingOut : Coin
  buybackFee : Coin
  deriving DecidableEq, Repr

/-- What a sale of backing takes. -/
structure RebackCost where
  backingIn : Coin
  rebackFee : Coin
  deriving DecidableEq, Repr

/-- What a sale of backing gives. -/
structure RebackQuote where
  nativeOut : Coin
  rebackFee : Coin
  deriving DecidableEq, Repr

structure Repayment where
  repayIn : Coin
  /-- The part that settles accrued interest. -/
  repayInterest : Coin
  repayPrincipal : Coin
  deriving DecidableEq, Repr

structure Liquidation where
  /-- What the liquidator pays. -/
  repayIn : Coin
  /-- The part of it that reduces the debt. -/
  repayDebt : Coin
  /-- The part of it above the debt, which goes to the debtor. -/
  refund : Coin
  collateralOut : Coin
  commission : Coin
  deriving DecidableEq, Repr

structure BorrowResponse where
  mintFee : Coin
  deriving DecidableEq, Repr

structure RepayResponse where
  repayIn : Coin
  repayInterest : Coin
  deriving DecidableEq, Repr

structure LiquidateResponse where
  repayIn : Coin
  collateralOut : Coin
  commission : Coin
  deriving DecidableEq, Repr

inductive Request where
  | mint (request : MintRequest)
  | burn (request : BurnRequest)
  | buyback (request : BuybackRequest)
  | reback (request : RebackRequest)
  | borrow (request : BorrowRequest)
  | repay (request : RepayRequest)
  | deposit (request : DepositRequest)
  | redeem (request : RedeemRequest)
  | liquidate (request : LiquidateRequest)
  deriving DecidableEq, Repr

inductive Response where
  | mint (quote : MintQuote)
  | burn (quote : BurnQuote)
  | buyback (quote : BuybackQuote)
  | reback (quote : RebackQuote)
  | borrow (response : BorrowResponse)
  | repay (response : RepayResponse)
  | deposit
  | redeem
  | liquidate (response : LiquidateResponse)
  deriving DecidableEq, Repr

namespace Request

/-- The name under which a request is logged. -/
def name : Request → String
  | mint _ => "mint_by_swap"
  | burn _ => "burn_by_swap"
  | buyback _ => "buy_backing"
  | reback _ => "sell_backing"
  | borrow _ => "mint_by_collateral"
  | repay _ => "burn_by_collateral"
  | deposit _ => "deposit_collateral"
  | redeem _ => "redeem_collateral"
  | liquidate _ => "liquidate_collateral"

end Request

end Stablecoin
