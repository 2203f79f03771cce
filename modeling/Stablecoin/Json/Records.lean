import Stablecoin.Engine.Query
import Stablecoin.Json.Basic

/-!
# JSON forms of parameters and records
-/
namespace Stablecoin

instance : JsonForm Params where
  toJson p := .object
    [("backing_ratio", toJson p.backingRatio), ("mint_price_bias", toJson p.mintPriceBias),
      ("burn_price_bias", toJson p.burnPriceBias), ("reback_bonus", toJson p.rebackBonus),
      ("liquidation_commission_fee", toJson p.liquidationCommission),
      ("blocks_per_year", toJson p.blocksPerYear)]
  ofJson? json := do
    let r ← json.record? ["backing_ratio", "mint_price_bias", "burn_price_bias", "reback_bonus",
      "liquidation_commission_fee", "blocks_per_year"]
    pure ⟨← field r "backing_ratio", ← field r "mint_price_bias", ← field r "burn_price_bias",
      ← field r "reback_bonus", ← field r "liquidation_commission_fee",
      ← field r "blocks_per_year"⟩

instance : JsonForm BackingParams where
  toJson p := .object
    [("backing_denom", toJson p.denom), ("enabled", toJson p.enabled),
      ("max_backing", toJson p.maxBacking), ("max_war_mint", toJson p.maxStableMint),
      ("mint_fee", toJson p.mintFee), ("burn_fee", toJson p.burnFee),
      ("buyback_fee", toJson p.buybackFee), ("reback_fee", toJson p.rebackFee)]
  ofJson? json := do
    let r ← json.record? ["backing_denom", "enabled", "max_backing", "max_war_mint", "mint_fee",
      "burn_fee", "buyback_fee", "reback_fee"]
    pure ⟨← field r "backing_denom", ← field r "enabled", ← optionalField r "max_backing",
      ← optionalField r "max_war_mint", ← optionalField r "mint_fee",
      ← optionalField r "burn_fee", ← optionalField r "buyback_fee",
      ← optionalField r "reback_fee"⟩

instance : JsonForm CollateralParams where
  toJson p := .object
    [("collateral_denom", toJson p.denom), ("enabled", toJson p.enabled),
      ("max_collateral", toJson p.maxCollateral), ("max_war_mint", toJson p.maxStableMint),
      ("liquidation_threshold", toJson p.liquidationThreshold),
      ("loan_to_value", toJson p.loanToValue),
      ("basic_loan_to_value", toJson p.basicLoanToValue),
      ("catalytic_mage_ratio", toJson p.catalyticRatio),
      ("liquidation_fee", toJson p.liquidationFee), ("mint_fee", toJson p.mintFee),
      ("interest_fee", toJson p.interestRate)]
  ofJson? json := do
    let r ← json.record? ["collateral_denom", "enabled", "max_collateral", "max_war_mint",
      "liquidation_threshold", "loan_to_value", "basic_loan_to_value", "catalytic_mage_ratio",
      "liquidation_fee", "mint_fee", "interest_fee"]
    pure ⟨← field r "collateral_denom", ← field r "enabled", ← optionalField r "max_collateral",
      ← optionalField r "max_war_mint", ← field r "liquidation_threshold",
      ← field r "loan_to_value", ← field r "basic_loan_to_value",
      ← field r "catalytic_mage_ratio", ← field r "liquidation_fee",
      ← optionalField r "mint_fee", ← field r "interest_fee"⟩

instance : JsonForm BackingPool where
  toJson p := .object
    [("backing", toJson p.backing), ("war_minted", toJson p.stableMinted),
      ("mage_burned", toJson p.nativeBurned)]
  ofJson? json := do
    let r ← json.record? ["backing", "war_minted", "mage_burned"]
    pure ⟨← field r "backing", ← field r "war_minted", ← field r "mage_burned"⟩

instance : JsonForm BackingTotal where
  toJson t := .object
    [("backing_value", toJson t.backingValue), ("war_minted", toJson t.stableMinted),
      ("mage_burned", toJson t.nativeBurned)]
  ofJson? json := do
    let r ← json.record? ["backing_value", "war_minted", "mage_burned"]
    pure ⟨← field r "backing_value", ← field r "war_minted", ← field r "mage_burned"⟩

instance : JsonForm CollateralPool where
  toJson p := .object
    [("collateral", toJson p.collateral), ("war_debt", toJson p.stableDebt),
      ("mage_collateralized", toJson p.nativeLocked)]
  ofJson? json := do
    let r ← json.record? ["collateral", "war_debt", "mage_collateralized"]
    pure ⟨← field r "collateral", ← field r "war_debt", ← field r "mage_collateralized"⟩

instance : JsonForm CollateralTotal where
  toJson t := .object
    [("war_debt", toJson t.stableDebt), ("mage_collateralized", toJson t.nativeLocked)]
  ofJson? json := do
    let r ← json.record? ["war_debt", "mage_collateralized"]
    pure ⟨← field r "war_debt", ← field r "mage_collateralized"⟩

instance : JsonForm Position where
  toJson p := .object
    [("account", toJson p.owner), ("collateral", toJson p.collateral),
      ("war_debt", toJson p.stableDebt), ("mage_collateralized", toJson p.nativeLocked),
      ("last_interest", toJson p.interest), ("last_settlement_block", toJson p.settledAt)]
  ofJson? json := do
    let r ← json.record? ["account", "collateral", "war_debt", "mage_collateralized",
      "last_interest", "last_settlement_block"]
    pure ⟨← field r "account", ← field r "collateral", ← field r "war_debt",
      ← field r "mage_collateralized", ← field r "last_interest",
      ← field r "last_settlement_block"⟩

instance : JsonForm ModuleAccounts where
  toJson a := .object
    [("module_account", toJson a.module), ("fee_collector", toJson a.feeCollector)]
  ofJson? json := do
    let r ← json.record? ["module_account", "fee_collector"]
    pure ⟨← field r "module_account", ← field r "fee_collector"⟩

instance : JsonForm BackingRatioResponse where
  toJson b := .object
    [("backing_ratio", toJson b.backingRatio), ("last_update_block", toJson b.lastUpdateBlock)]
  ofJson? json := do
    let r ← json.record? ["backing_ratio", "last_update_block"]
    pure ⟨← field r "backing_ratio", ← field r "last_update_block"⟩

end Stablecoin
