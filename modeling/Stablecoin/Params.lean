import Stablecoin.Block
import Stablecoin.Checked

/-!
# Parameters

The engine's own parameters and the risk parameters of each backing and collateral asset, with the
conditions under which governance may set them.
-/
namespace Stablecoin

structure Params where
  /-- The share of newly minted value that backing has to cover. -/
  backingRatio : Decimal
  mintPriceBias : Decimal
  burnPriceBias : Decimal
  rebackBonus : Decimal
  liquidationCommission : Decimal
  blocksPerYear : Height
  deriving DecidableEq, BEq, Repr

structure BackingParams where
  denom : Denom
  enabled : Bool
  maxBacking : Option Nat
  maxStableMint : Option Nat
  mintFee : Option Decimal
  burnFee : Option Decimal
  buybackFee : Option Decimal
  rebackFee : Option Decimal
  deriving DecidableEq, BEq, Repr

structure CollateralParams where
  denom : Denom
  enabled : Bool
  maxCollateral : Option Nat
  maxStableMint : Option Nat
  /-- The share of the collateral value at which debt can be liquidated. -/
  liquidationThreshold : Decimal
  /-- The loan-to-value that a saturated catalytic ratio gives. -/
  loanToValue : Decimal
  /-- The loan-to-value without native token. -/
  basicLoanToValue : Decimal
  catalyticRatio : Decimal
  liquidationFee : Decimal
  mintFee : Option Decimal
  /-- The yearly rate on principal debt. -/
  interestRate : Decimal
  deriving DecidableEq, BEq, Repr

/-- The value of one stable unit that the engine defends. -/
def pegTarget : Decimal := 1

def percent (n : UInt32) : Decimal := .ofSmall n 2

def requireNonNegative (name : String) (rate : Decimal) : Result Unit :=
  require (0 ≤ rate) (.invalidParams (name ++ " must not be negative, got " ++ rate.text))

/-- Refuses a rate outside `[0, 1)`. -/
def requireFraction (name : String) (rate : Decimal) : Result Unit := do
  requireNonNegative name rate
  require (rate < 1) (.invalidParams (name ++ " must be below 1, got " ++ rate.text))

/-- Refuses an optional rate outside `[0, 1)`. -/
def requireOptionalFraction (name : String) : Option Decimal → Result Unit
  | some rate => requireFraction name rate
  | none => pure ()

/-- Refuses the engine's own tokens as a risk asset. -/
def requireRiskDenom (denom : Denom) : Result Unit :=
  require (denom ≠ "" ∧ denom ≠ stableDenom ∧ denom ≠ nativeDenom)
    (.invalidParams ("invalid risk asset denomination: '" ++ denom ++ "'"))

namespace Params

/-- The parameters that an engine starts with unless told otherwise. -/
def initial : Params where
  backingRatio := 1
  mintPriceBias := percent 1
  burnPriceBias := percent 1
  rebackBonus := .ofSmall 75 4
  liquidationCommission := .ofSmall 1 1
  blocksPerYear := 6311520

def validate (p : Params) : Result Unit := do
  requireNonNegative "backing_ratio" p.backingRatio
  requireFraction "mint_price_bias" p.mintPriceBias
  requireFraction "burn_price_bias" p.burnPriceBias
  requireNonNegative "reback_bonus" p.rebackBonus
  requireFraction "liquidation_commission_fee" p.liquidationCommission
  require (p.blocksPerYear ≠ 0) (.invalidParams "blocks_per_year must be positive")

end Params

namespace BackingParams

/-- Fees are strictly below one, since amounts are grossed up by `1 / (1 - fee)`. -/
def validate (p : BackingParams) : Result Unit := do
  requireRiskDenom p.denom
  requireOptionalFraction "mint_fee" p.mintFee
  requireOptionalFraction "burn_fee" p.burnFee
  requireOptionalFraction "buyback_fee" p.buybackFee
  requireOptionalFraction "reback_fee" p.rebackFee

end BackingParams

namespace CollateralParams

def validate (p : CollateralParams) : Result Unit := do
  requireRiskDenom p.denom
  requireFraction "liquidation_fee" p.liquidationFee
  requireNonNegative "interest_fee" p.interestRate
  requireNonNegative "catalytic_mage_ratio" p.catalyticRatio
  requireOptionalFraction "mint_fee" p.mintFee
  require (0 ≤ p.basicLoanToValue ∧ p.basicLoanToValue ≤ p.loanToValue ∧ p.loanToValue ≤ 1)
    (.invalidParams ("loan to value must satisfy 0 <= basic (" ++ p.basicLoanToValue.text ++
      ") <= max (" ++ p.loanToValue.text ++ ") <= 1"))
  require (0 < p.liquidationThreshold ∧ p.liquidationThreshold ≤ 1)
    (.invalidParams ("liquidation_threshold must be in (0, 1], got " ++
      p.liquidationThreshold.text))

end CollateralParams

end Stablecoin
