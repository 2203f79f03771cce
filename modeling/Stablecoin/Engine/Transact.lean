import Stablecoin.Engine.CollateralPlan
import Stablecoin.Engine.SwapPlan

/-!
# Transactions

A request is planned and, if the plan stands, carried out.
-/
namespace Stablecoin.Engine

def plan (e : Engine) (sender : Principal) : Request → Result Plan
  | .mint r => e.planMint sender r
  | .burn r => e.planBurn sender r
  | .buyback r => e.planBuyback sender r
  | .reback r => e.planReback sender r
  | .borrow r => e.planBorrow sender r
  | .repay r => e.planRepay sender r
  | .deposit r => e.planDeposit sender r
  | .redeem r => e.planRedeem sender r
  | .liquidate r => e.planLiquidate sender r

def transact (e : Engine) (sender : Principal) (request : Request) : Receipt Response :=
  match e.plan sender request with
  | .error failure => e.refused request.name failure none []
  | .ok plan => e.carryOut request.name plan

end Stablecoin.Engine
