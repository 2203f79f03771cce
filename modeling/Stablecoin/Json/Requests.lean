import Stablecoin.Json.Basic
import Stablecoin.Request

/-!
# JSON forms of requests, quotes and answers
-/
namespace Stablecoin

instance : JsonForm MintRequest where
  toJson r := .object
    [("to", toJson r.receiver), ("mint_out_min", toJson r.mintOutMin),
      ("backing_in_max", toJson r.backingInMax), ("mage_in_max", toJson r.nativeInMax),
      ("full_backing", toJson r.fullBacking)]
  ofJson? json := do
    let r ← json.record? ["to", "mint_out_min", "backing_in_max", "mage_in_max", "full_backing"]
    pure ⟨← optionalField r "to", ← field r "mint_out_min", ← field r "backing_in_max",
      ← field r "mage_in_max", ← field r "full_backing"⟩

instance : JsonForm BurnRequest where
  toJson r := .object
    [("to", toJson r.receiver), ("burn_in", toJson r.burnIn),
      ("backing_out_min", toJson r.backingOutMin), ("mage_out_min", toJson r.nativeOutMin)]
  ofJson? json := do
    let r ← json.record? ["to", "burn_in", "backing_out_min", "mage_out_min"]
    pure ⟨← optionalField r "to", ← field r "burn_in", ← field r "backing_out_min",
      ← field r "mage_out_min"⟩

instance : JsonForm BuybackRequest where
  toJson r := .object
    [("to", toJson r.receiver), ("mage_in", toJson r.nativeIn),
      ("backing_out_min", toJson r.backingOutMin)]
  ofJson? json := do
    let r ← json.record? ["to", "mage_in", "backing_out_min"]
    pure ⟨← optionalField r "to", ← field r "mage_in", ← field r "backing_out_min"⟩

instance : JsonForm RebackRequest where
  toJson r := .object
    [("to", toJson r.receiver), ("backing_in", toJson r.backingIn),
      ("mage_out_min", toJson r.nativeOutMin)]
  ofJson? json := do
    let r ← json.record? ["to", "backing_in", "mage_out_min"]
    pure ⟨← optionalField r "to", ← field r "backing_in", ← field r "mage_out_min"⟩

instance : JsonForm BorrowRequest where
  toJson r := .object
    [("to", toJson r.receiver), ("collateral_denom", toJson r.denom),
      ("mint_out", toJson r.mintOut)]
  ofJson? json := do
    let r ← json.record? ["to", "collateral_denom", "mint_out"]
    pure ⟨← optionalField r "to", ← field r "collateral_denom", ← field r "mint_out"⟩

instance : JsonForm RepayRequest where
  toJson r := .object
    [("collateral_denom", toJson r.denom), ("repay_in_max", toJson r.repayInMax)]
  ofJson? json := do
    let r ← json.record? ["collateral_denom", "repay_in_max"]
    pure ⟨← field r "collateral_denom", ← field r "repay_in_max"⟩

instance : JsonForm DepositRequest where
  toJson r := .object
    [("to", toJson r.receiver), ("collateral_in", toJson r.collateralIn),
      ("mage_in", toJson r.nativeIn)]
  ofJson? json := do
    let r ← json.record? ["to", "collateral_in", "mage_in"]
    pure ⟨← optionalField r "to", ← field r "collateral_in", ← field r "mage_in"⟩

instance : JsonForm RedeemRequest where
  toJson r := .object
    [("to", toJson r.receiver), ("collateral_out", toJson r.collateralOut),
      ("mage_out", toJson r.nativeOut)]
  ofJson? json := do
    let r ← json.record? ["to", "collateral_out", "mage_out"]
    pure ⟨← optionalField r "to", ← field r "collateral_out", ← field r "mage_out"⟩

instance : JsonForm LiquidateRequest where
  toJson r := .object
    [("to", toJson r.receiver), ("debtor", toJson r.debtor),
      ("collateral", toJson r.collateral), ("repay_in_max", toJson r.repayInMax)]
  ofJson? json := do
    let r ← json.record? ["to", "debtor", "collateral", "repay_in_max"]
    pure ⟨← optionalField r "to", ← field r "debtor", ← field r "collateral",
      ← field r "repay_in_max"⟩

instance : JsonForm MintCost where
  toJson q := .object
    [("backing_in", toJson q.backingIn), ("mage_in", toJson q.nativeIn),
      ("mint_fee", toJson q.mintFee)]
  ofJson? json := do
    let r ← json.record? ["backing_in", "mage_in", "mint_fee"]
    pure ⟨← field r "backing_in", ← field r "mage_in", ← field r "mint_fee"⟩

instance : JsonForm MintQuote where
  toJson q := .object
    [("backing_in", toJson q.backingIn), ("mage_in", toJson q.nativeIn),
      ("mint_out", toJson q.mintOut), ("mint_fee", toJson q.mintFee)]
  ofJson? json := do
    let r ← json.record? ["backing_in", "mage_in", "mint_out", "mint_fee"]
    pure ⟨← field r "backing_in", ← field r "mage_in", ← field r "mint_out",
      ← field r "mint_fee"⟩

instance : JsonForm BurnCost where
  toJson q := .object
    [("burn_in", toJson q.burnIn), ("backing_out", toJson q.backingOut),
      ("mage_out", toJson q.nativeOut), ("burn_fee", toJson q.burnFee)]
  ofJson? json := do
    let r ← json.record? ["burn_in", "backing_out", "mage_out", "burn_fee"]
    pure ⟨← field r "burn_in", ← field r "backing_out", ← field r "mage_out",
      ← field r "burn_fee"⟩

instance : JsonForm BurnQuote where
  toJson q := .object
    [("backing_out", toJson q.backingOut), ("mage_out", toJson q.nativeOut),
      ("burn_fee", toJson q.burnFee)]
  ofJson? json := do
    let r ← json.record? ["backing_out", "mage_out", "burn_fee"]
    pure ⟨← field r "backing_out", ← field r "mage_out", ← field r "burn_fee"⟩

instance : JsonForm BuybackCost where
  toJson q := .object [("mage_in", toJson q.nativeIn), ("buyback_fee", toJson q.buybackFee)]
  ofJson? json := do
    let r ← json.record? ["mage_in", "buyback_fee"]
    pure ⟨← field r "mage_in", ← field r "buyback_fee"⟩

instance : JsonForm BuybackQuote where
  toJson q := .object
    [("backing_out", toJson q.backingOut), ("buyback_fee", toJson q.buybackFee)]
  ofJson? json := do
    let r ← json.record? ["backing_out", "buyback_fee"]
    pure ⟨← field r "backing_out", ← field r "buyback_fee"⟩

instance : JsonForm RebackCost where
  toJson q := .object [("backing_in", toJson q.backingIn), ("reback_fee", toJson q.rebackFee)]
  ofJson? json := do
    let r ← json.record? ["backing_in", "reback_fee"]
    pure ⟨← field r "backing_in", ← field r "reback_fee"⟩

instance : JsonForm RebackQuote where
  toJson q := .object [("mage_out", toJson q.nativeOut), ("reback_fee", toJson q.rebackFee)]
  ofJson? json := do
    let r ← json.record? ["mage_out", "reback_fee"]
    pure ⟨← field r "mage_out", ← field r "reback_fee"⟩

instance : JsonForm Repayment where
  toJson p := .object
    [("repay_in", toJson p.repayIn), ("repay_interest", toJson p.repayInterest),
      ("repay_principal", toJson p.repayPrincipal)]
  ofJson? json := do
    let r ← json.record? ["repay_in", "repay_interest", "repay_principal"]
    pure ⟨← field r "repay_in", ← field r "repay_interest", ← field r "repay_principal"⟩

instance : JsonForm Liquidation where
  toJson p := .object
    [("repay_in", toJson p.repayIn), ("repay_debt", toJson p.repayDebt),
      ("refund", toJson p.refund), ("collateral_out", toJson p.collateralOut),
      ("commission_fee", toJson p.commission)]
  ofJson? json := do
    let r ← json.record? ["repay_in", "repay_debt", "refund", "collateral_out",
      "commission_fee"]
    pure ⟨← field r "repay_in", ← field r "repay_debt", ← field r "refund",
      ← field r "collateral_out", ← field r "commission_fee"⟩

instance : JsonForm BorrowResponse where
  toJson a := .object [("mint_fee", toJson a.mintFee)]
  ofJson? json := do
    let r ← json.record? ["mint_fee"]
    pure ⟨← field r "mint_fee"⟩

instance : JsonForm RepayResponse where
  toJson a := .object
    [("repay_in", toJson a.repayIn), ("repay_interest", toJson a.repayInterest)]
  ofJson? json := do
    let r ← json.record? ["repay_in", "repay_interest"]
    pure ⟨← field r "repay_in", ← field r "repay_interest"⟩

instance : JsonForm LiquidateResponse where
  toJson a := .object
    [("repay_in", toJson a.repayIn), ("collateral_out", toJson a.collateralOut),
      ("commission_fee", toJson a.commission)]
  ofJson? json := do
    let r ← json.record? ["repay_in", "collateral_out", "commission_fee"]
    pure ⟨← field r "repay_in", ← field r "collateral_out", ← field r "commission_fee"⟩

end Stablecoin
