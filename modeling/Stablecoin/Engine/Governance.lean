import Stablecoin.Engine.Plan

/-!
# Governance and block hooks

Setting parameters, registering assets, and the beginning and end of a block. The backing ratio is
moved by the adjustment at the end of a block, which dates it, and is replaced with the other
parameters, which does not.
-/
namespace Stablecoin

/-- What the adjustment of the backing ratio sees. -/
structure RatioInput where
  height : Height
  backingRatio : Decimal
  adjustedAt : Height
  stablePrice : Option Decimal
  deriving DecidableEq, Repr

namespace Engine

/-- Replaces the parameters, the backing ratio included. -/
def setParams (e : Engine) (params : Params) : Receipt Unit :=
  match params.validate with
  | .error failure => { result := .error failure, engine := e }
  | .ok () =>
    { result := .ok ()
      engine := { e with store := { e.store with params } }.record .setParams
      journal := [Event.setParams.line] }

/-- The line that registering an asset writes. -/
def registered (operation : String) (denom : Denom) (enabled : Bool) : LogLine :=
  .about .info operation (denom ++ " enabled: " ++ toString enabled)

/-- Adds or updates a backing asset. A missing pool, and a missing total, start out empty. -/
def registerBacking (e : Engine) (params : BackingParams) : Receipt Unit :=
  match params.validate with
  | .error failure => { result := .error failure, engine := e }
  | .ok () =>
    let store := match e.store.backingPools.get? params.denom with
      | some _ => e.store
      | none => e.store.setBackingPool (.empty params.denom)
    let store := { store with backingTotal := some (store.backingTotal.getD .empty) }
    let event := Event.registerBacking params.denom params.enabled
    { result := .ok ()
      engine := { e with store := store.setBackingParams params }.record event
      journal := [registered "register_backing" params.denom params.enabled, event.line] }

/-- Adds or updates a collateral asset. A missing pool, and a missing total, start out empty. -/
def registerCollateral (e : Engine) (params : CollateralParams) : Receipt Unit :=
  match params.validate with
  | .error failure => { result := .error failure, engine := e }
  | .ok () =>
    let store := match e.store.collateralPools.get? params.denom with
      | some _ => e.store
      | none => e.store.setCollateralPool (.empty params.denom)
    let store := { store with collateralTotal := some (store.collateralTotal.getD .empty) }
    let event := Event.registerCollateral params.denom params.enabled
    { result := .ok ()
      engine := { e with store := store.setCollateralParams params }.record event
      journal := [registered "register_collateral" params.denom params.enabled, event.line] }

def beginBlock (e : Engine) (height : Height) : Engine := { e with height }

/-- What the adjustment of the backing ratio sees now. -/
def ratioInput (e : Engine) : RatioInput where
  height := e.height
  backingRatio := e.store.params.backingRatio
  adjustedAt := e.store.ratioAdjustedAt
  stablePrice := e.prices.get? stableDenom

/-- Ends a block: the adjustment may set a new backing ratio, which is ignored below zero. -/
def endBlock (e : Engine) (adjust : RatioInput → Option Decimal) : Receipt RatioInput :=
  let input := e.ratioInput
  match adjust input with
  | none => { result := .ok input, engine := e }
  | some ratio =>
    let block := " at block " ++ toString e.height
    if ratio < 0 then
      { result := .ok input
        engine := e
        journal :=
          [.about .info "end_block" ("ignoring negative backing ratio " ++ ratio.text ++ block)] }
    else
      let event := Event.adjustBackingRatio ratio e.height
      let params := { e.store.params with backingRatio := ratio }
      { result := .ok input
        engine :=
          { e with store := { e.store with params, ratioAdjustedAt := e.height } }.record event
        journal :=
          [.about .info "end_block" ("backing ratio " ++ input.backingRatio.text ++ " -> " ++
            ratio.text ++ block), event.line] }

end Engine

end Stablecoin
