import Stablecoin.Collateral.Debt
import Stablecoin.Collateral.Liquidation
import Stablecoin.Proofs.Result

/-!
# How operations change records

A position is kept three times: in its own record, in its pool and in the total. Each operation is
described here by one change that all three levels undergo, so that no level can be forgotten. The
same is done for the pool and the total that a swap touches.
-/
namespace Stablecoin

/-- By how much a position changes, and its pool and the total with it. -/
structure PositionChange where
  collateral : Int := 0
  debt : Int := 0
  native : Int := 0
  /-- The part of the change in debt that is interest. -/
  interest : Int := 0

/-- The records after a change of a position, its pool and the total by the same amounts. -/
structure PositionRecords.Changed (before : PositionRecords) (change : PositionChange)
    (after : PositionRecords) : Prop where
  owner : after.position.owner = before.position.owner
  denom : after.position.collateral.denom = before.position.collateral.denom
  poolDenom : after.pool.collateral.denom = before.pool.collateral.denom
  collateral :
    (after.position.collateral.amount : Int)
      = before.position.collateral.amount + change.collateral
  poolCollateral :
    (after.pool.collateral.amount : Int) = before.pool.collateral.amount + change.collateral
  debt :
    (after.position.stableDebt.amount : Int) = before.position.stableDebt.amount + change.debt
  poolDebt : (after.pool.stableDebt.amount : Int) = before.pool.stableDebt.amount + change.debt
  totalDebt : (after.total.stableDebt.amount : Int) = before.total.stableDebt.amount + change.debt
  native :
    (after.position.nativeLocked.amount : Int)
      = before.position.nativeLocked.amount + change.native
  poolNative :
    (after.pool.nativeLocked.amount : Int) = before.pool.nativeLocked.amount + change.native
  totalNative :
    (after.total.nativeLocked.amount : Int) = before.total.nativeLocked.amount + change.native
  interest :
    (after.position.interest.amount : Int) = before.position.interest.amount + change.interest

namespace PositionRecords

theorem Changed.trans {first second third : PositionRecords} {change change' : PositionChange}
    (earlier : first.Changed change second) (later : second.Changed change' third) :
    first.Changed
      ⟨change.collateral + change'.collateral, change.debt + change'.debt,
        change.native + change'.native, change.interest + change'.interest⟩ third where
  owner := later.owner.trans earlier.owner
  denom := later.denom.trans earlier.denom
  poolDenom := later.poolDenom.trans earlier.poolDenom
  collateral := by rw [later.collateral, earlier.collateral, Int.add_assoc]
  poolCollateral := by rw [later.poolCollateral, earlier.poolCollateral, Int.add_assoc]
  debt := by rw [later.debt, earlier.debt, Int.add_assoc]
  poolDebt := by rw [later.poolDebt, earlier.poolDebt, Int.add_assoc]
  totalDebt := by rw [later.totalDebt, earlier.totalDebt, Int.add_assoc]
  native := by rw [later.native, earlier.native, Int.add_assoc]
  poolNative := by rw [later.poolNative, earlier.poolNative, Int.add_assoc]
  totalNative := by rw [later.totalNative, earlier.totalNative, Int.add_assoc]
  interest := by rw [later.interest, earlier.interest, Int.add_assoc]

/-- The interest stays within the debt when it grows by no more than the debt does. -/
theorem Changed.interest_le {before after : PositionRecords} {change : PositionChange}
    (changed : before.Changed change after) (within : change.interest ≤ change.debt)
    (covered : before.position.interest.amount ≤ before.position.stableDebt.amount) :
    after.position.interest.amount ≤ after.position.stableDebt.amount := by
  have debt := changed.debt
  have interest := changed.interest
  omega

/-- The interest stays within the debt when it is repaid first. -/
theorem Changed.interest_le_of_repaid {before after : PositionRecords} {change : PositionChange}
    {repaid : Nat} (changed : before.Changed change after) (debt : change.debt = -repaid)
    (interest : change.interest = -(min before.position.interest.amount repaid : Nat))
    (covered : before.position.interest.amount ≤ before.position.stableDebt.amount) :
    after.position.interest.amount ≤ after.position.stableDebt.amount := by
  have left := changed.debt
  have leftInterest := changed.interest
  rw [debt] at left
  rw [interest] at leftInterest
  -- Either the interest is gone, or all that was repaid came off it.
  omega

/-- Settling adds interest to what is owed and to the interest in it. -/
theorem settle_changed {r settled : PositionRecords} {rate : Decimal}
    {height blocksPerYear : Height} (returned : r.settle rate height blocksPerYear = .ok settled) :
    ∃ interest : Nat, r.Changed { debt := interest, interest := interest } settled := by
  unfold settle at returned
  dsimp only at returned
  split at returned
  next =>
    -- No block has passed since the last settlement.
    cases pure_ok.mp returned
    exact ⟨0, by constructor <;> simp⟩
  next =>
    simp only [bind_ok, require_ok, Coin.add_ok, pure_ok] at returned
    obtain ⟨_, _, _, _, interest, _, _, ⟨_, rfl⟩, _, ⟨_, rfl⟩, _, ⟨_, rfl⟩, _, ⟨_, rfl⟩, rfl⟩ :=
      returned
    exact ⟨interest, by constructor <;> simp⟩

theorem deposit_changed {r after : PositionRecords} {collateral native : Coin}
    (returned : r.deposit collateral native = .ok after) :
    r.Changed { collateral := collateral.amount, native := native.amount } after := by
  simp only [deposit, bind_ok, Coin.add_ok, pure_ok] at returned
  obtain ⟨_, ⟨_, rfl⟩, _, ⟨_, rfl⟩, _, ⟨_, rfl⟩, _, ⟨_, rfl⟩, _, ⟨_, rfl⟩, rfl⟩ := returned
  constructor <;> simp

theorem redeem_changed {r after : PositionRecords} {collateral native : Coin}
    (returned : r.redeem collateral native = .ok after) :
    r.Changed { collateral := -collateral.amount, native := -native.amount } after := by
  simp only [redeem, bind_ok, Coin.withdraw_ok, pure_ok] at returned
  obtain ⟨_, ⟨_, rfl⟩, _, ⟨_, rfl⟩, _, ⟨_, rfl⟩, _, ⟨_, rfl⟩, _, ⟨_, rfl⟩, rfl⟩ := returned
  constructor <;> simp <;> omega

theorem borrow_changed {r after : PositionRecords} {amount : Nat}
    (returned : r.borrow amount = .ok after) : r.Changed { debt := amount } after := by
  simp only [borrow, bind_ok, Coin.add_ok, pure_ok] at returned
  obtain ⟨_, ⟨_, rfl⟩, _, ⟨_, rfl⟩, _, ⟨_, rfl⟩, rfl⟩ := returned
  constructor <;> simp

end PositionRecords

namespace Engine

variable {e : Engine}

theorem collateralParams_ok {denom : Denom} {params : CollateralParams}
    (found : e.collateralParams denom = .ok params) :
    e.store.collateralParams.get? denom = some params ∧ params.enabled = true := by
  unfold collateralParams at found
  split at found
  next => simp at found
  next stored =>
    simp only [bind_ok, require_ok, pure_ok] at found
    obtain ⟨_, enabled, rfl⟩ := found
    exact ⟨stored, enabled⟩

/-- A position is read from the store, or opened if it is missing there. -/
theorem position_ok {owner : Principal} {denom : Denom} {mayOpen : Bool} {r : PositionRecords}
    (found : e.position owner denom mayOpen = .ok r) :
    e.store.collateralTotal = some r.total ∧ e.store.collateralPools.get? denom = some r.pool ∧
      (e.store.positions.get? (owner, denom) = some r.position ∨
        e.store.positions.get? (owner, denom) = none ∧ mayOpen = true ∧
          r.position = .opened owner denom e.height) := by
  unfold position at found
  split at found
  next total pool foundTotal foundPool =>
    split at found
    next stored =>
      cases pure_ok.mp found
      exact ⟨foundTotal, foundPool, .inl stored⟩
    next missing =>
      split at found
      next open' =>
        cases pure_ok.mp found
        exact ⟨foundTotal, foundPool, .inr ⟨missing, open', rfl⟩⟩
      next => simp at found
  next => simp at found

theorem settledPosition_ok {owner : Principal} {params : CollateralParams} {mayOpen : Bool}
    {settled : PositionRecords} (returned : e.settledPosition owner params mayOpen = .ok settled) :
    ∃ before, e.position owner params.denom mayOpen = .ok before ∧
      before.settle params.interestRate e.height e.store.params.blocksPerYear = .ok settled := by
  simpa only [settledPosition, bind_ok] using returned

theorem afterDeposit_ok {receiver : Principal} {collateralIn nativeIn : Coin}
    {after : PositionRecords}
    (returned : e.afterDeposit receiver collateralIn nativeIn = .ok after) :
    nativeIn.denom = nativeDenom ∧ ∃ params settled,
      e.collateralParams collateralIn.denom = .ok params ∧
      e.settledPosition receiver params true = .ok settled ∧
      settled.deposit collateralIn nativeIn = .ok after ∧
      params.requireCollateralCeiling after.pool.collateral = .ok () := by
  simp only [afterDeposit, bind_ok, Coin.requireDenom_ok, pure_ok] at returned
  obtain ⟨_, native, params, known, settled, loaded, _, deposited, _, ceiling, rfl⟩ := returned
  exact ⟨native, params, settled, known, loaded, deposited, ceiling⟩

theorem afterRedeem_ok {owner : Principal} {collateralOut nativeOut : Coin}
    {after : PositionRecords} (returned : e.afterRedeem owner collateralOut nativeOut = .ok after) :
    nativeOut.denom = nativeDenom ∧ ∃ params settled limit debtValue,
      e.collateralParams collateralOut.denom = .ok params ∧
      e.settledPosition owner params false = .ok settled ∧
      settled.redeem collateralOut nativeOut = .ok after ∧
      e.debtLimit after.position params = .ok limit ∧
      after.position.stableDebt.worth pegTarget = .ok debtValue ∧
      debtValue ≤ limit.maxDebtValue := by
  simp only [afterRedeem, bind_ok, Coin.requireDenom_ok, require_ok, pure_ok] at returned
  obtain ⟨_, native, params, known, settled, loaded, _, redeemed, limit, limited, debtValue, valued,
    _, covered, rfl⟩ := returned
  exact ⟨native, params, settled, limit, debtValue, known, loaded, redeemed, limited, valued,
    covered⟩

theorem afterBorrow_ok {owner : Principal} {denom : Denom} {mintOut fee : Coin}
    {after : PositionRecords} (returned : e.afterBorrow owner denom mintOut = .ok (fee, after)) :
    mintOut.denom = stableDenom ∧ ∃ params collateralPrice nativePrice settled maxDebt,
      e.collateralParams denom = .ok params ∧ e.price denom = .ok collateralPrice ∧
      e.price nativeDenom = .ok nativePrice ∧
      e.settledPosition owner params false = .ok settled ∧
      mintOut.fee params.mintFee = .ok fee ∧
      settled.borrow (mintOut.amount + fee.amount) = .ok after ∧
      params.requireDebtCeiling after.pool.stableDebt = .ok () ∧
      after.position.maxDebt params collateralPrice nativePrice = .ok maxDebt ∧
      after.position.stableDebt.amount ≤ maxDebt := by
  simp only [afterBorrow, bind_ok, Coin.requireDenom_ok, require_ok, Coin.add_ok, pure_ok,
    Prod.mk.injEq] at returned
  obtain ⟨_, stable, params, known, collateralPrice, priced, nativePrice, nativePriced, settled,
    loaded, _, charged, _, ⟨_, rfl⟩, _, borrowed, _, ceiling, maxDebt, limited, _, covered, rfl,
    rfl⟩ := returned
  exact ⟨stable, params, collateralPrice, nativePrice, settled, maxDebt, known, priced,
    nativePriced, loaded, charged, borrowed, ceiling, limited, covered⟩

theorem afterRepay_ok {owner : Principal} {denom : Denom} {repayInMax : Coin} {parts : Repayment}
    {after : PositionRecords}
    (returned : e.afterRepay owner denom repayInMax = .ok (parts, after)) :
    repayInMax.denom = stableDenom ∧ ∃ params settled repayIn repayInterest,
      e.collateralParams denom = .ok params ∧
      e.settledPosition owner params false = .ok settled ∧
      settled.position.stableDebt.amount ≠ 0 ∧
      repayIn = min settled.position.stableDebt.amount repayInMax.amount ∧
      repayInterest = min settled.position.interest.amount repayIn ∧
      parts = ⟨⟨stableDenom, repayIn⟩, ⟨stableDenom, repayInterest⟩,
        ⟨stableDenom, repayIn - repayInterest⟩⟩ ∧
      settled.Changed { debt := -repayIn, interest := -repayInterest } after := by
  simp only [afterRepay, bind_ok, Coin.requireDenom_ok, require_ok, Coin.sub_ok, pure_ok,
    Prod.mk.injEq] at returned
  obtain ⟨_, stable, params, known, settled, loaded, _, indebted, _, ⟨_, rfl⟩, _, ⟨_, rfl⟩, _,
    ⟨_, rfl⟩, _, ⟨_, rfl⟩, rfl, rfl⟩ := returned
  refine ⟨stable, params, settled, _, _, known, loaded, by simpa [Coin.isZero] using indebted, rfl,
    rfl, rfl, ?_⟩
  constructor <;> dsimp only <;> omega

theorem afterLiquidate_ok {debtor : Principal} {collateral repayInMax : Coin} {parts : Liquidation}
    {after : PositionRecords}
    (returned : e.afterLiquidate debtor collateral repayInMax = .ok (parts, after)) :
    repayInMax.denom = stableDenom ∧
      ∃ params price settled amount fee commission rest value repayIn repayDebt repayInterest,
      e.collateralParams collateral.denom = .ok params ∧ e.price collateral.denom = .ok price ∧
      e.settledPosition debtor params false = .ok settled ∧
      requireLiquidatable settled.position params price = .ok () ∧
      collateral.toDecimal = .ok amount ∧ amount.mul params.liquidationFee = .ok fee ∧
      (do (← fee.mul e.store.params.liquidationCommission).payOut) = .ok commission ∧
      amount.subTrusted fee = .ok rest ∧ rest.mul price = .ok value ∧
      value.payOutAt pegTarget = .ok repayIn ∧ repayIn ≤ repayInMax.amount ∧
      commission ≤ collateral.amount ∧
      repayDebt = min settled.position.stableDebt.amount repayIn ∧
      repayInterest = min settled.position.interest.amount repayDebt ∧
      parts = ⟨⟨stableDenom, repayIn⟩, ⟨stableDenom, repayDebt⟩, ⟨stableDenom, repayIn - repayDebt⟩,
        ⟨collateral.denom, collateral.amount - commission⟩, ⟨collateral.denom, commission⟩⟩ ∧
      settled.Changed
        { collateral := -collateral.amount, debt := -repayDebt, interest := -repayInterest }
        after := by
  simp only [afterLiquidate, bind_ok, Coin.requireDenom_ok, require_ok] at returned
  obtain ⟨_, stable, params, known, price, priced, settled, loaded, _, liquidatable, _, held,
    amount, counted, fee, charged, _, cut, commission, taken, _, kept, rest, left, value, valued,
    repayIn, paid, _, capped, written⟩ := returned
  -- The differences are opened only when the amounts in them have names.
  simp only [Coin.sub_ok, Coin.withdraw_ok, pure_ok, Prod.mk.injEq] at kept written
  obtain ⟨covered, rfl⟩ := kept
  obtain ⟨_, ⟨_, rfl⟩, _, ⟨_, rfl⟩, _, ⟨_, rfl⟩, _, ⟨_, rfl⟩, _, ⟨_, rfl⟩, _, ⟨_, rfl⟩, rfl, rfl⟩ :=
    written
  refine ⟨stable, params, price, settled, amount, fee, commission, rest, value, repayIn, _, _,
    known, priced, loaded, liquidatable, counted, charged, bind_ok.mpr ⟨_, cut, taken⟩, left,
    valued, paid, capped, covered, rfl, rfl, rfl, ?_⟩
  constructor <;> dsimp only <;> omega

end Engine

end Stablecoin
