import Stablecoin.Json.Basic
import Stablecoin.Rejection

/-!
# JSON forms of accounts and rejections
-/
namespace Stablecoin

instance : JsonForm Account where
  toJson
    | .user owner => .tagged "User" (toJson owner)
    | .module name => .tagged "Module" (toJson name)
  ofJson? json := do
    match ← json.tagged? with
    | ("User", content) => pure (.user (← content? content))
    | ("Module", content) => pure (.module (← content? content))
    | _ => none

namespace LedgerError

def tag : LedgerError → String
  | insufficientFunds .. => "InsufficientFunds"
  | invalidDenom _ => "InvalidDenom"
  | overflow _ => "Overflow"

end LedgerError

instance : JsonForm LedgerError where
  toJson e := .tagged e.tag (match e with
    | .insufficientFunds account required balance => .object
      [("account", toJson account), ("required", toJson required), ("balance", toJson balance)]
    | .invalidDenom denom => toJson denom
    | .overflow coin => toJson coin)
  ofJson? json := do
    match ← json.tagged? with
    | ("InsufficientFunds", content) =>
      let r ← Json.fields? content
      pure (.insufficientFunds (← field r "account") (← field r "required")
        (← field r "balance"))
    | ("InvalidDenom", content) => pure (.invalidDenom (← content? content))
    | ("Overflow", content) => pure (.overflow (← content? content))
    | _ => none

instance : JsonForm PriceError where
  toJson e := .object [("denom", toJson e.denom), ("reason", toJson e.reason)]
  ofJson? json := do
    let r ← json.record? ["denom", "reason"]
    pure ⟨← field r "denom", ← field r "reason"⟩

namespace Rejection

def tag : Rejection → String
  | backingNotFound _ => "BackingCoinNotFound"
  | backingDisabled _ => "BackingCoinDisabled"
  | collateralNotFound _ => "CollateralCoinNotFound"
  | collateralDisabled _ => "CollateralCoinDisabled"
  | invalidParams _ => "InvalidParams"
  | wrongDenom .. => "InvalidDenom"
  | price _ => "Oracle"
  | stablePriceTooLow .. => "WarPriceTooLow"
  | stablePriceTooHigh .. => "WarPriceTooHigh"
  | slippage .. => "OverSlippage"
  | stableCeiling .. => "WarCeiling"
  | backingCeiling .. => "BackingCeiling"
  | collateralCeiling .. => "CollateralCeiling"
  | backingInsufficient .. => "BackingCoinInsufficient"
  | nativeInsufficient .. => "MageCoinInsufficient"
  | collateralInsufficient .. => "CollateralCoinInsufficient"
  | debtAboveLimit .. => "AccountInsufficientCollateral"
  | noPosition _ => "AccountNoCollateral"
  | noDebt _ => "AccountNoDebt"
  | notLiquidatable .. => "NotUndercollateralized"
  | ledger _ => "Ledger"
  | overflow => "ArithmeticOverflow"
  | negativeAmount _ => "NegativeAmount"

/-- What is written with a rejection's tag. -/
def content : Rejection → Json
  | backingNotFound denom => toJson denom
  | backingDisabled denom => toJson denom
  | collateralNotFound denom => toJson denom
  | collateralDisabled denom => toJson denom
  | invalidParams reason => toJson reason
  | wrongDenom expected actual =>
    .object [("expected", toJson expected), ("actual", toJson actual)]
  | price error => toJson error
  | stablePriceTooLow actual lowerBound =>
    .object [("price", toJson actual), ("lower_bound", toJson lowerBound)]
  | stablePriceTooHigh actual upperBound =>
    .object [("price", toJson actual), ("upper_bound", toJson upperBound)]
  | slippage actual limit => .object [("actual", toJson actual), ("limit", toJson limit)]
  | stableCeiling minted ceiling =>
    .object [("minted", toJson minted), ("ceiling", toJson ceiling)]
  | backingCeiling backing ceiling =>
    .object [("backing", toJson backing), ("ceiling", toJson ceiling)]
  | collateralCeiling collateral ceiling =>
    .object [("collateral", toJson collateral), ("ceiling", toJson ceiling)]
  | backingInsufficient requested available =>
    .object [("requested", toJson requested), ("available", toJson available)]
  | nativeInsufficient requested available =>
    .object [("requested", toJson requested), ("available", toJson available)]
  | collateralInsufficient requested available =>
    .object [("requested", toJson requested), ("available", toJson available)]
  | debtAboveLimit debt maxDebt =>
    .object [("debt", toJson debt), ("max_debt", toJson maxDebt)]
  | noPosition denom => toJson denom
  | noDebt denom => toJson denom
  | notLiquidatable debtValue liquidationValue =>
    .object [("debt_value", toJson debtValue), ("liquidation_value", toJson liquidationValue)]
  | ledger error => toJson error
  | overflow => .null
  | negativeAmount value => toJson value

def json : Rejection → Json
  | overflow => .string overflow.tag
  | rejection => .tagged rejection.tag rejection.content

/-- Reads a rejection from its tag and what comes with it. -/
def ofTagged? (tag : String) (content : Option Json) : Option Rejection :=
  match tag with
  | "BackingCoinNotFound" => do pure (backingNotFound (← content? content))
  | "BackingCoinDisabled" => do pure (backingDisabled (← content? content))
  | "CollateralCoinNotFound" => do pure (collateralNotFound (← content? content))
  | "CollateralCoinDisabled" => do pure (collateralDisabled (← content? content))
  | "InvalidParams" => do pure (invalidParams (← content? content))
  | "InvalidDenom" => do
    let r ← Json.fields? content
    pure (wrongDenom (← field r "expected") (← field r "actual"))
  | "Oracle" => do pure (price (← content? content))
  | "WarPriceTooLow" => do
    let r ← Json.fields? content
    pure (stablePriceTooLow (← field r "price") (← field r "lower_bound"))
  | "WarPriceTooHigh" => do
    let r ← Json.fields? content
    pure (stablePriceTooHigh (← field r "price") (← field r "upper_bound"))
  | "OverSlippage" => do
    let r ← Json.fields? content
    pure (slippage (← field r "actual") (← field r "limit"))
  | "WarCeiling" => do
    let r ← Json.fields? content
    pure (stableCeiling (← field r "minted") (← field r "ceiling"))
  | "BackingCeiling" => do
    let r ← Json.fields? content
    pure (backingCeiling (← field r "backing") (← field r "ceiling"))
  | "CollateralCeiling" => do
    let r ← Json.fields? content
    pure (collateralCeiling (← field r "collateral") (← field r "ceiling"))
  | "BackingCoinInsufficient" => do
    let r ← Json.fields? content
    pure (backingInsufficient (← field r "requested") (← field r "available"))
  | "MageCoinInsufficient" => do
    let r ← Json.fields? content
    pure (nativeInsufficient (← field r "requested") (← field r "available"))
  | "CollateralCoinInsufficient" => do
    let r ← Json.fields? content
    pure (collateralInsufficient (← field r "requested") (← field r "available"))
  | "AccountInsufficientCollateral" => do
    let r ← Json.fields? content
    pure (debtAboveLimit (← field r "debt") (← field r "max_debt"))
  | "AccountNoCollateral" => do pure (noPosition (← content? content))
  | "AccountNoDebt" => do pure (noDebt (← content? content))
  | "NotUndercollateralized" => do
    let r ← Json.fields? content
    pure (notLiquidatable (← field r "debt_value") (← field r "liquidation_value"))
  | "Ledger" => do pure (ledger (← content? content))
  | "ArithmeticOverflow" => do
    Json.nothing? content
    pure overflow
  | "NegativeAmount" => do pure (negativeAmount (← content? content))
  | _ => none

end Rejection

instance : JsonForm Rejection where
  toJson := Rejection.json
  ofJson? json := json.tagged?.bind fun (tag, content) => Rejection.ofTagged? tag content

end Stablecoin
