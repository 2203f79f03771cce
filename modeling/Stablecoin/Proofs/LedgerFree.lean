import Stablecoin.Engine.Transact
import Stablecoin.Proofs.Result

/-!
# Planning asks no ledger

What a plan is computed from are records, parameters and prices. The ledger is read for what the
module account holds and not asked for anything, so whatever refuses a request before its plan is
carried out, it is not the ledger.
-/
namespace Stablecoin

/-- The ledger has not refused. -/
def LedgerFree {α : Type} (result : Result α) : Prop :=
  ∀ error, result ≠ .error (.rejected (.ledger error))

section Sequences

variable {α β : Type}

@[simp] theorem ledgerFree_pure (value : α) : LedgerFree (pure value) := by
  intro error refused
  cases refused

/-- A sequence asks the ledger only if one of its steps does. -/
@[simp] theorem ledgerFree_bind {first : Result α} {next : α → Result β} :
    LedgerFree (first >>= next) ↔
      LedgerFree first ∧ ∀ value, first = .ok value → LedgerFree (next value) := by
  cases first with
  | ok value => simp [LedgerFree, bind, Except.bind]
  | error failure => simp [LedgerFree, bind, Except.bind]

@[simp] theorem ledgerFree_map {f : α → β} {result : Result α} :
    LedgerFree (f <$> result) ↔ LedgerFree result := by
  cases result <;> simp [LedgerFree, Functor.map, Except.map]

@[simp] theorem ledgerFree_reject {cause : Rejection} :
    LedgerFree (reject cause : Result α) ↔ ∀ error, cause ≠ .ledger error := by
  simp [LedgerFree, reject]

@[simp] theorem ledgerFree_require {condition : Prop} [Decidable condition] {cause : Rejection} :
    LedgerFree (require condition cause) ↔ condition ∨ ∀ error, cause ≠ .ledger error := by
  unfold require
  split
  next held => simp [held]
  next failed => simp [failed]

@[simp] theorem ledgerFree_orOverflow (value : Option α) : LedgerFree (orOverflow value) := by
  cases value <;> simp [orOverflow]

end Sequences

/-! ### Arithmetic -/

namespace Decimal

variable (a b : Decimal)

@[simp] theorem mul_ledgerFree : LedgerFree (a.mul b) := by simp [mul]

@[simp] theorem div_ledgerFree : LedgerFree (a.div b) := by simp [div]

@[simp] theorem add_ledgerFree : LedgerFree (a.add b) := by simp [add]

@[simp] theorem addTrusted_ledgerFree : LedgerFree (a.addTrusted b) := by
  unfold addTrusted
  split
  next => simp
  next => simp [LedgerFree]

@[simp] theorem subTrusted_ledgerFree : LedgerFree (a.subTrusted b) := by
  unfold subTrusted
  split
  next => simp
  next => simp [LedgerFree]

@[simp] theorem ofAmount_ledgerFree (n : Nat) : LedgerFree (ofAmount n) := by simp [ofAmount]

@[simp] theorem ofCounter_ledgerFree (n : Int) : LedgerFree (ofCounter n) := by simp [ofCounter]

end Decimal

@[simp] theorem amountOf_ledgerFree (n : Int) : LedgerFree (amountOf n) := by
  unfold amountOf
  split <;> simp

namespace Decimal

variable (d price : Decimal)

@[simp] theorem payIn_ledgerFree : LedgerFree d.payIn := amountOf_ledgerFree _

@[simp] theorem payOut_ledgerFree : LedgerFree d.payOut := amountOf_ledgerFree _

@[simp] theorem charge_ledgerFree : LedgerFree d.charge := amountOf_ledgerFree _

@[simp] theorem payInAt_ledgerFree : LedgerFree (d.payInAt price) := by simp [payInAt]

@[simp] theorem payOutAt_ledgerFree : LedgerFree (d.payOutAt price) := by simp [payOutAt]

end Decimal

namespace Coin

variable (c : Coin)

@[simp] theorem add_ledgerFree (n : Nat) : LedgerFree (c.add n) := by
  unfold add
  split <;> simp

@[simp] theorem sub_ledgerFree (n : Nat) : LedgerFree (c.sub n) := by
  unfold sub
  split <;> simp

@[simp] theorem toDecimal_ledgerFree : LedgerFree c.toDecimal := by simp [toDecimal]

@[simp] theorem worth_ledgerFree (price : Decimal) : LedgerFree (c.worth price) := by simp [worth]

@[simp] theorem withdraw_ledgerFree (amount : Coin) : LedgerFree (c.withdraw amount) := by
  simp [withdraw]

@[simp] theorem requireDenom_ledgerFree (expected : Denom) :
    LedgerFree (c.requireDenom expected) := by
  simp [requireDenom]

@[simp] theorem fee_ledgerFree (rate : Option Decimal) : LedgerFree (c.fee rate) := by
  cases rate <;> simp [fee]

end Coin

namespace SignedCoin

variable (c : SignedCoin)

@[simp] theorem move_ledgerFree (delta : Int) : LedgerFree (c.move delta) := by
  unfold move
  dsimp only
  split <;> simp

@[simp] theorem add_ledgerFree (n : Nat) : LedgerFree (c.add n) := c.move_ledgerFree n

@[simp] theorem sub_ledgerFree (n : Nat) : LedgerFree (c.sub n) := c.move_ledgerFree (-n)

end SignedCoin

@[simp] theorem requireAtLeast_ledgerFree (actual minimum : Coin) :
    LedgerFree (requireAtLeast actual minimum) := by
  simp [requireAtLeast]

/-! ### Lookups -/

namespace PriceTable

variable (t : PriceTable) (denom : Denom)

@[simp] theorem quoted_ledgerFree : LedgerFree (t.quoted denom) := by
  unfold quoted
  split <;> simp

@[simp] theorem price_ledgerFree : LedgerFree (t.price denom) := by simp [price]

end PriceTable

namespace Engine

variable (e : Engine) (denom : Denom)

@[simp] theorem price_ledgerFree : LedgerFree (e.price denom) := e.prices.price_ledgerFree denom

@[simp] theorem requireMintPrice_ledgerFree : LedgerFree e.requireMintPrice := by
  simp [requireMintPrice, Stablecoin.requireMintPrice]

@[simp] theorem requireBurnPrice_ledgerFree : LedgerFree e.requireBurnPrice := by
  simp [requireBurnPrice, Stablecoin.requireBurnPrice]

@[simp] theorem backingParams_ledgerFree : LedgerFree (e.backingParams denom) := by
  unfold backingParams
  split <;> simp

@[simp] theorem collateralParams_ledgerFree : LedgerFree (e.collateralParams denom) := by
  unfold collateralParams
  split <;> simp

@[simp] theorem backing_ledgerFree : LedgerFree (e.backing denom) := by
  unfold backing
  split <;> simp

@[simp] theorem position_ledgerFree (owner : Principal) (mayOpen : Bool) :
    LedgerFree (e.position owner denom mayOpen) := by
  unfold position
  split
  next =>
    split
    next => simp
    next => split <;> simp
  next => simp

end Engine

/-! ### Swaps -/

namespace BackingParams

variable (params : BackingParams)

@[simp] theorem requireMintCeiling_ledgerFree (minted : SignedCoin) :
    LedgerFree (params.requireMintCeiling minted) := by
  unfold requireMintCeiling
  split <;> simp

@[simp] theorem requireBackingCeiling_ledgerFree (backing : Coin) :
    LedgerFree (params.requireBackingCeiling backing) := by
  unfold requireBackingCeiling
  split <;> simp

end BackingParams

namespace Engine

variable (e : Engine)

@[simp] theorem mintWithin_ledgerFree (mix : Mix) (backingPrice nativePrice : Decimal)
    (backingMax nativeMax : Coin) (backingMaxValue nativeMaxValue : Decimal) :
    LedgerFree (mintWithin mix backingPrice nativePrice backingMax nativeMax backingMaxValue
      nativeMaxValue) := by
  cases mix with
  | fullBacking | algorithmic => simp [mintWithin]
  | fractional ratio =>
    simp only [mintWithin, fractionalMint, ledgerFree_bind]
    refine ⟨by simp, fun _ _ => ⟨by simp, fun _ _ => ⟨by simp, fun _ _ => ?_⟩⟩⟩
    split <;> simp

@[simp] theorem mintQuote_ledgerFree (backingMax nativeMax : Coin) (fullBacking : Bool) :
    LedgerFree (e.mintQuote backingMax nativeMax fullBacking) := by
  simp [mintQuote]

@[simp] theorem burnOut_ledgerFree (mix : Mix) (backingPrice nativePrice value : Decimal) :
    LedgerFree (burnOut mix backingPrice nativePrice value) := by
  cases mix <;> simp [burnOut]

@[simp] theorem requireBackingHeld_ledgerFree (pool : BackingPool) (denom : Denom) (amount : Nat) :
    LedgerFree (e.requireBackingHeld pool denom amount) := by
  simp [requireBackingHeld]

@[simp] theorem burnQuote_ledgerFree (burnIn : Coin) (denom : Denom) :
    LedgerFree (e.burnQuote burnIn denom) := by
  simp [burnQuote]

@[simp] theorem addPoolValues_ledgerFree (value : Decimal) (pools : List BackingPool) :
    LedgerFree (e.addPoolValues value pools) := by
  unfold addPoolValues
  induction pools generalizing value with
  | nil => simp
  | cons pool rest ih => simp [List.foldlM_cons, ih]

@[simp] theorem excessBacking_ledgerFree : LedgerFree e.excessBacking := by
  unfold excessBacking
  split
  next => simp
  next => simp [requiredBacking, backingValue]

@[simp] theorem buybackQuote_ledgerFree (nativeIn : Coin) (denom : Denom) :
    LedgerFree (e.buybackQuote nativeIn denom) := by
  simp [buybackQuote, requireSurplus]

@[simp] theorem rebackQuote_ledgerFree (backingIn : Coin) :
    LedgerFree (e.rebackQuote backingIn) := by
  simp [rebackQuote, availableReback]

end Engine

/-! ### Positions -/

namespace PositionRecords

variable (r : PositionRecords)

@[simp] theorem settle_ledgerFree (rate : Decimal) (height blocksPerYear : Height) :
    LedgerFree (r.settle rate height blocksPerYear) := by
  unfold settle
  dsimp only
  split
  next => simp
  next => simp [accruedInterest, Position.principal]

@[simp] theorem deposit_ledgerFree (collateral native : Coin) :
    LedgerFree (r.deposit collateral native) := by
  simp [deposit]

@[simp] theorem redeem_ledgerFree (collateral native : Coin) :
    LedgerFree (r.redeem collateral native) := by
  simp [redeem]

@[simp] theorem borrow_ledgerFree (amount : Nat) : LedgerFree (r.borrow amount) := by
  simp [borrow]

end PositionRecords

namespace CollateralParams

variable (params : CollateralParams)

@[simp] theorem requireCollateralCeiling_ledgerFree (collateral : Coin) :
    LedgerFree (params.requireCollateralCeiling collateral) := by
  unfold requireCollateralCeiling
  split <;> simp

@[simp] theorem requireDebtCeiling_ledgerFree (debt : Coin) :
    LedgerFree (params.requireDebtCeiling debt) := by
  unfold requireDebtCeiling
  split
  next =>
    split
    next => simp
    next => split <;> simp
  next => simp

@[simp] theorem availableLoanToValue_ledgerFree (collateralValue nativeValue : Decimal) :
    LedgerFree (params.availableLoanToValue collateralValue nativeValue) := by
  unfold availableLoanToValue
  split
  next => simp
  next => simp

end CollateralParams

namespace Engine

variable (e : Engine)

@[simp] theorem settledPosition_ledgerFree (owner : Principal) (params : CollateralParams)
    (mayOpen : Bool) : LedgerFree (e.settledPosition owner params mayOpen) := by
  simp [settledPosition]

@[simp] theorem debtLimit_ledgerFree (position : Position) (params : CollateralParams) :
    LedgerFree (e.debtLimit position params) := by
  simp only [debtLimit, Position.valuesAt, ledgerFree_bind]
  refine ⟨by simp, fun _ _ => ⟨by simp, fun _ _ => ⟨by simp, fun _ _ => ?_⟩⟩⟩
  split <;> simp

@[simp] theorem maxDebt_ledgerFree (position : Position) (params : CollateralParams)
    (collateralPrice nativePrice : Decimal) :
    LedgerFree (position.maxDebt params collateralPrice nativePrice) := by
  simp [Position.maxDebt, Position.valuesAt]

@[simp] theorem afterDeposit_ledgerFree (receiver : Principal) (collateralIn nativeIn : Coin) :
    LedgerFree (e.afterDeposit receiver collateralIn nativeIn) := by
  simp [afterDeposit]

@[simp] theorem afterRedeem_ledgerFree (owner : Principal) (collateralOut nativeOut : Coin) :
    LedgerFree (e.afterRedeem owner collateralOut nativeOut) := by
  simp [afterRedeem]

@[simp] theorem afterBorrow_ledgerFree (owner : Principal) (denom : Denom) (mintOut : Coin) :
    LedgerFree (e.afterBorrow owner denom mintOut) := by
  simp [afterBorrow]

@[simp] theorem afterRepay_ledgerFree (owner : Principal) (denom : Denom) (repayInMax : Coin) :
    LedgerFree (e.afterRepay owner denom repayInMax) := by
  simp [afterRepay]

@[simp] theorem afterLiquidate_ledgerFree (debtor : Principal) (collateral repayInMax : Coin) :
    LedgerFree (e.afterLiquidate debtor collateral repayInMax) := by
  simp [afterLiquidate, requireLiquidatable]

/-! ### Plans -/

variable (sender : Principal)

/-- No plan is refused by the ledger. -/
theorem plan_ledgerFree (request : Request) : LedgerFree (e.plan sender request) := by
  -- Each plan is a sequence of steps that ask no ledger.
  cases request with
  | mint r => simp [plan, planMint]
  | burn r => simp [plan, planBurn]
  | buyback r => simp [plan, planBuyback]
  | reback r => simp [plan, planReback]
  | borrow r => simp [plan, planBorrow]
  | repay r => simp [plan, planRepay]
  | deposit r => simp [plan, planDeposit]
  | redeem r => simp [plan, planRedeem]
  | liquidate r => simp [plan, planLiquidate]

end Engine

end Stablecoin
