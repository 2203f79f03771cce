import Stablecoin.Event
import Stablecoin.Json.Basic
import Stablecoin.Ledger.Operation

/-!
# JSON forms of events and ledger operations

An event's tag is its name.
-/
namespace Stablecoin

namespace Event

/-- The fields that an event is written with, none for an event without content. -/
def fields : Event → List (String × Json)
  | mintBySwap sender receiver coinIn coinOut fee =>
    [("sender", toJson sender), ("receiver", toJson receiver), ("coin_in", toJson coinIn),
      ("coin_out", toJson coinOut), ("fee", toJson fee)]
  | burnBySwap sender receiver coinIn coinOut fee =>
    [("sender", toJson sender), ("receiver", toJson receiver), ("coin_in", toJson coinIn),
      ("coin_out", toJson coinOut), ("fee", toJson fee)]
  | buyBacking sender receiver coinIn coinOut fee =>
    [("sender", toJson sender), ("receiver", toJson receiver), ("coin_in", toJson coinIn),
      ("coin_out", toJson coinOut), ("fee", toJson fee)]
  | sellBacking sender receiver coinIn coinOut fee =>
    [("sender", toJson sender), ("receiver", toJson receiver), ("coin_in", toJson coinIn),
      ("coin_out", toJson coinOut), ("fee", toJson fee)]
  | mintByCollateral sender receiver coinOut fee =>
    [("sender", toJson sender), ("receiver", toJson receiver), ("coin_out", toJson coinOut),
      ("fee", toJson fee)]
  | burnByCollateral sender denom coinIn fee =>
    [("sender", toJson sender), ("collateral_denom", toJson denom), ("coin_in", toJson coinIn),
      ("fee", toJson fee)]
  | depositCollateral sender receiver coinIn =>
    [("sender", toJson sender), ("receiver", toJson receiver), ("coin_in", toJson coinIn)]
  | redeemCollateral sender receiver coinOut =>
    [("sender", toJson sender), ("receiver", toJson receiver), ("coin_out", toJson coinOut)]
  | liquidateCollateral sender receiver debtor coinIn coinOut fee =>
    [("sender", toJson sender), ("receiver", toJson receiver), ("debtor", toJson debtor),
      ("coin_in", toJson coinIn), ("coin_out", toJson coinOut), ("fee", toJson fee)]
  | registerBacking denom enabled =>
    [("backing_denom", toJson denom), ("enabled", toJson enabled)]
  | registerCollateral denom enabled =>
    [("collateral_denom", toJson denom), ("enabled", toJson enabled)]
  | setParams => []
  | adjustBackingRatio backingRatio height =>
    [("backing_ratio", toJson backingRatio), ("block_height", toJson height)]

def json : Event → Json
  | setParams => .string setParams.name
  | event => .tagged event.name (.object event.fields)

/-- Reads an event from its tag and what comes with it. -/
def ofTagged? (tag : String) (content : Option Json) : Option Event :=
  match tag with
  | "mint_by_swap" => do
    let r ← Json.fields? content
    pure (mintBySwap (← field r "sender") (← field r "receiver") (← field r "coin_in")
      (← field r "coin_out") (← field r "fee"))
  | "burn_by_swap" => do
    let r ← Json.fields? content
    pure (burnBySwap (← field r "sender") (← field r "receiver") (← field r "coin_in")
      (← field r "coin_out") (← field r "fee"))
  | "buy_backing" => do
    let r ← Json.fields? content
    pure (buyBacking (← field r "sender") (← field r "receiver") (← field r "coin_in")
      (← field r "coin_out") (← field r "fee"))
  | "sell_backing" => do
    let r ← Json.fields? content
    pure (sellBacking (← field r "sender") (← field r "receiver") (← field r "coin_in")
      (← field r "coin_out") (← field r "fee"))
  | "mint_by_collateral" => do
    let r ← Json.fields? content
    pure (mintByCollateral (← field r "sender") (← field r "receiver") (← field r "coin_out")
      (← field r "fee"))
  | "burn_by_collateral" => do
    let r ← Json.fields? content
    pure (burnByCollateral (← field r "sender") (← field r "collateral_denom")
      (← field r "coin_in") (← field r "fee"))
  | "deposit_collateral" => do
    let r ← Json.fields? content
    pure (depositCollateral (← field r "sender") (← field r "receiver") (← field r "coin_in"))
  | "redeem_collateral" => do
    let r ← Json.fields? content
    pure (redeemCollateral (← field r "sender") (← field r "receiver") (← field r "coin_out"))
  | "liquidate_collateral" => do
    let r ← Json.fields? content
    pure (liquidateCollateral (← field r "sender") (← field r "receiver") (← field r "debtor")
      (← field r "coin_in") (← field r "coin_out") (← field r "fee"))
  | "register_backing" => do
    let r ← Json.fields? content
    pure (registerBacking (← field r "backing_denom") (← field r "enabled"))
  | "register_collateral" => do
    let r ← Json.fields? content
    pure (registerCollateral (← field r "collateral_denom") (← field r "enabled"))
  | "set_params" => do
    Json.nothing? content
    pure setParams
  | "adjust_backing_ratio" => do
    let r ← Json.fields? content
    pure (adjustBackingRatio (← field r "backing_ratio") (← field r "block_height"))
  | _ => none

end Event

instance : JsonForm Event where
  toJson := Event.json
  ofJson? json := json.tagged?.bind fun (tag, content) => Event.ofTagged? tag content

instance : JsonForm LedgerOp where
  toJson
    | .sendToModule source module coins => .tagged "SendFromAccountToModule"
      (.object [("from", toJson source), ("module", toJson module), ("coins", toJson coins)])
    | .sendToUser module target coins => .tagged "SendFromModuleToAccount"
      (.object [("module", toJson module), ("to", toJson target), ("coins", toJson coins)])
    | .sendBetweenModules source target coins => .tagged "SendFromModuleToModule"
      (.object [("from", toJson source), ("to", toJson target), ("coins", toJson coins)])
    | .mint module coins => .tagged "MintCoins"
      (.object [("module", toJson module), ("coins", toJson coins)])
    | .burn module coins => .tagged "BurnCoins"
      (.object [("module", toJson module), ("coins", toJson coins)])
  ofJson? json := do
    let (tag, content) ← json.tagged?
    let r ← Json.fields? content
    match tag with
    | "SendFromAccountToModule" =>
      pure (.sendToModule (← field r "from") (← field r "module") (← field r "coins"))
    | "SendFromModuleToAccount" =>
      pure (.sendToUser (← field r "module") (← field r "to") (← field r "coins"))
    | "SendFromModuleToModule" =>
      pure (.sendBetweenModules (← field r "from") (← field r "to") (← field r "coins"))
    | "MintCoins" => pure (.mint (← field r "module") (← field r "coins"))
    | "BurnCoins" => pure (.burn (← field r "module") (← field r "coins"))
    | _ => none

end Stablecoin
