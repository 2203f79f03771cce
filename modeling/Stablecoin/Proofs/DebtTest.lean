import Stablecoin.Proofs.Conversions
import Stablecoin.Proofs.Exit
import Stablecoin.Proofs.LiquidationGap

/-!
# One test of debt

A loan compares its debt with the limit in whole units, a withdrawal with the limit itself. Both
tests accept the same debts as long as the limit is not negative, which valid parameters ensure:
a debt is a whole number, so what truncation takes off the limit makes no difference to it. A
negative limit above minus one is truncated to zero, and then a loan accepts a position without debt
that a withdrawal refuses.
-/
namespace Stablecoin

namespace Decimal

/-- Every decimal has a quotient by one. -/
theorem div?_one (a : Decimal) : ∃ quotient, a.div? 1 = some quotient := by
  by_cases zero : a.isZero = true
  · exact ⟨0, by rw [div?, if_neg (by decide), if_pos zero]⟩
  · have even : LongDivision.run 1 58 ⟨a.coefficient.natAbs / 1, a.coefficient.natAbs % 1,
        (a.scale : Int) - 0, false⟩ = some ⟨a.coefficient.natAbs, 0, a.scale, false⟩ := by
      simp [LongDivision.run, Nat.mod_one]
    refine ⟨a, ?_⟩
    rw [div?, if_neg (by decide), if_neg zero]
    refine Option.bind_eq_some_iff.mpr ⟨_, even, ofParts?_eq_some.mpr ⟨?_, ?_⟩⟩
    · rw [if_neg Bool.false_ne_true, show (1 : Decimal).coefficient.sign = 1 from rfl, mul_one,
        Int.sign_mul_natAbs]
    · rw [if_neg Bool.false_ne_true, Int.toNat_natCast]

/-- Truncation takes a negative decimal to zero if it is above minus one, and else no higher than
minus one. -/
theorem truncate_of_neg {d : Decimal} (negative : d.toRat < 0) :
    d.truncate ≤ 0 ∧ (d.truncate = 0 ↔ -1 < d.toRat) := by
  have unit : (0 : Int) < tenPow d.scale := by exact_mod_cast tenPow_pos d.scale
  have unitRat : (0 : ℚ) < 10 ^ d.scale := by positivity
  obtain ⟨n, magnitude⟩ : ∃ n : Nat, d.coefficient = -n := by
    rw [toRat_eq, div_lt_iff₀ unitRat, zero_mul] at negative
    have below : d.coefficient < 0 := by exact_mod_cast negative
    exact ⟨d.coefficient.natAbs, by omega⟩
  have whole : d.truncate = -(n / tenPow d.scale : Nat) := by
    rw [truncate, magnitude, Int.neg_tdiv, Int.tdiv_eq_ediv_of_nonneg (Int.natCast_nonneg n)]
    rfl
  have small : n / tenPow d.scale = 0 ↔ n < tenPow d.scale := by
    rw [Nat.div_eq_zero_iff]
    exact or_iff_right (tenPow_pos d.scale).ne'
  have value : -1 < d.toRat ↔ n < tenPow d.scale := by
    rw [toRat_eq, lt_div_iff₀ unitRat, magnitude, neg_one_mul, Int.cast_neg, neg_lt_neg_iff,
      Int.cast_natCast, ← cast_tenPow]
    exact Nat.cast_lt
  rw [value, ← small, whole]
  generalize n / tenPow d.scale = magnitude
  omega

/-- A number of units is covered by what is paid out at the peg if the value covers it; and no units
are covered by a negative value too that is truncated to zero. -/
theorem covered_payOutAt_pegTarget_iff (value : Decimal) (m : Nat) :
    (∃ n, value.payOutAt pegTarget = .ok n ∧ m ≤ n) ↔
      (m : ℚ) ≤ value.toRat ∨ m = 0 ∧ -1 < value.toRat := by
  obtain ⟨quotient, divided⟩ := div?_one value
  have same : quotient.toRat = value.toRat := div?_one_toRat divided
  have paidOut : value.payOutAt pegTarget = quotient.payOut := by
    rw [payOutAt, div, show value.div? pegTarget = some quotient from divided]
    rfl
  rw [paidOut, ← same]
  rcases le_or_gt 0 quotient.toRat with nonneg | negative
  · obtain ⟨n, paid⟩ := payOut_of_nonneg nonneg
    have covered := le_payOut_iff m paid nonneg
    constructor
    · rintro ⟨n', paid', within⟩
      cases paid.symm.trans paid'
      exact .inl (covered.mp within)
    · rintro (within | ⟨rfl, -⟩)
      · exact ⟨n, paid, covered.mpr within⟩
      · exact ⟨n, paid, Nat.zero_le n⟩
  · obtain ⟨most, zero⟩ := truncate_of_neg negative
    have none : ¬(m : ℚ) ≤ quotient.toRat := by
      have cast : (0 : ℚ) ≤ m := Nat.cast_nonneg m
      linarith
    simp only [none, false_or, payOut, amountOf_ok]
    constructor
    · rintro ⟨n, paid, within⟩
      exact ⟨by omega, zero.mp (by omega)⟩
    · rintro ⟨rfl, above⟩
      exact ⟨0, zero.mpr above, le_rfl⟩

end Decimal

/-! ### The two tests -/

/-- The test that ends a loan: the debt is within the limit in whole units. -/
def Position.requireBorrowable (position : Position) (params : CollateralParams)
    (collateralPrice nativePrice : Decimal) : Result Unit := do
  let maxDebt ← position.maxDebt params collateralPrice nativePrice
  let debt := position.stableDebt
  require (debt.amount ≤ maxDebt) (.debtAboveLimit debt.text (Coin.mk stableDenom maxDebt).text)

/-- Nothing can always be redeemed from records. -/
theorem PositionRecords.redeem_nothing (r : PositionRecords) (denom native : Denom) :
    r.redeem (.zero denom) (.zero native) = .ok r := by
  have nothing (c : Coin) (denom : Denom) : c.withdraw (.zero denom) = .ok c :=
    Coin.withdraw_ok.mpr ⟨Nat.zero_le _, rfl⟩
  simp only [redeem, nothing, ok_bind]
  rfl

namespace Engine

/-- The test that ends a withdrawal: the value of the debt is within the limit. -/
def requireRedeemable (e : Engine) (position : Position) (params : CollateralParams) :
    Result Unit := do
  let limit ← e.debtLimit position params
  let debtValue ← position.stableDebt.worth pegTarget
  require (debtValue ≤ limit.maxDebtValue) (.debtAboveLimit debtValue.text limit.maxDebtValue.text)

/-- A loan ends with its test. -/
theorem afterBorrow_eq (e : Engine) (owner : Principal) (denom : Denom) (mintOut : Coin) :
    e.afterBorrow owner denom mintOut = (do
      mintOut.requireDenom stableDenom
      let params ← e.collateralParams denom
      let collateralPrice ← e.price denom
      let nativePrice ← e.price nativeDenom
      let settled ← e.settledPosition owner params false
      let mintFee ← mintOut.fee params.mintFee
      let mintTotal ← mintOut.add mintFee.amount
      let records ← settled.borrow mintTotal.amount
      params.requireDebtCeiling records.pool.stableDebt
      records.position.requireBorrowable params collateralPrice nativePrice
      pure (mintFee, records)) := by
  simp only [afterBorrow, Position.requireBorrowable, bind_assoc]

/-- A withdrawal ends with its test. -/
theorem afterRedeem_eq (e : Engine) (owner : Principal) (collateralOut nativeOut : Coin) :
    e.afterRedeem owner collateralOut nativeOut = (do
      nativeOut.requireDenom nativeDenom
      let params ← e.collateralParams collateralOut.denom
      let records ← (← e.settledPosition owner params false).redeem collateralOut nativeOut
      e.requireRedeemable records.position params
      pure records) := by
  simp only [afterRedeem, requireRedeemable, bind_assoc]

variable {e : Engine} {position : Position} {risk : CollateralParams}

/-- A withdrawal accepts the debts up to the limit. -/
theorem requireRedeemable_iff : e.requireRedeemable position risk = .ok () ↔
    ∃ limit, e.debtLimit position risk = .ok limit ∧
      (position.stableDebt.amount : ℚ) ≤ limit.maxDebtValue.toRat := by
  simp only [requireRedeemable, bind_ok, require_ok, Coin.worth_pegTarget, Coin.toDecimal]
  constructor
  · rintro ⟨limit, limited, debtValue, owed, covered⟩
    rw [Decimal.le_iff_toRat, Decimal.ofAmount_toRat owed] at covered
    exact ⟨limit, limited, covered⟩
  · rintro ⟨limit, limited, covered⟩
    have owed := Decimal.ofAmount_of_lt (Decimal.lt_coefficientBound_of_le covered)
    refine ⟨limit, limited, _, owed, ?_⟩
    rwa [Decimal.le_iff_toRat, Decimal.ofAmount_toRat owed]

/-- A loan accepts the same debts, and no debt also at a negative limit that is truncated to
zero. -/
theorem requireBorrowable_iff {price nativePrice value nativeValue : Decimal}
    (priced : e.price position.collateral.denom = .ok price)
    (nativePriced : e.price nativeDenom = .ok nativePrice)
    (valued : position.valuesAt price nativePrice = .ok (value, nativeValue))
    (positive : 0 < value) :
    position.requireBorrowable risk price nativePrice = .ok () ↔
      ∃ limit, e.debtLimit position risk = .ok limit ∧
        ((position.stableDebt.amount : ℚ) ≤ limit.maxDebtValue.toRat ∨
          position.stableDebt.amount = 0 ∧ -1 < limit.maxDebtValue.toRat) := by
  have worth : ¬ value ≤ 0 := by
    rw [Decimal.le_iff_toRat, not_le]
    exact Decimal.lt_iff_toRat.mp positive
  simp only [Position.requireBorrowable, Position.maxDebt, debtLimit, priced, nativePriced, valued,
    ok_bind, worth, positive, if_false, bind_ok, require_ok, pure_ok,
    ← Decimal.covered_payOutAt_pegTarget_iff]
  constructor
  · rintro ⟨maxDebt, ⟨_, _, loanToValue, available, product, multiplied, paid⟩, covered⟩
    exact ⟨_, ⟨loanToValue, available, product, multiplied, rfl⟩, maxDebt, paid, covered⟩
  · rintro ⟨_, ⟨loanToValue, available, product, multiplied, rfl⟩, maxDebt, paid, covered⟩
    exact ⟨maxDebt, ⟨(), trivial, loanToValue, available, product, multiplied, paid⟩, covered⟩

/-- Under valid parameters no limit is negative, and so the two tests accept the same debts. -/
theorem requireBorrowable_iff_requireRedeemable {price nativePrice value nativeValue : Decimal}
    (valid : risk.validate = .ok ()) (priced : e.price position.collateral.denom = .ok price)
    (nativePriced : e.price nativeDenom = .ok nativePrice)
    (valued : position.valuesAt price nativePrice = .ok (value, nativeValue))
    (positive : 0 < value) :
    position.requireBorrowable risk price nativePrice = .ok () ↔
      e.requireRedeemable position risk = .ok () := by
  rw [requireBorrowable_iff priced nativePriced valued positive, requireRedeemable_iff]
  refine exists_congr fun limit => and_congr_right fun limited => or_iff_left_of_imp ?_
  rintro ⟨none, -⟩
  rw [none, Nat.cast_zero]
  exact (debtLimit_bounds valid limited).2.2

/-! ### A withdrawal of nothing after a loan -/

/-- Whoever borrows against an asset does so under its parameters. -/
theorem transact_borrow_registered {sender : Principal} {r : BorrowRequest} {response : Response}
    (returned : (e.transact sender (.borrow r)).result = .ok response) :
    ∃ risk, e.store.collateralParams.get? r.denom = some risk ∧ risk.enabled = true := by
  obtain ⟨plan, _, planned, -⟩ := transact_ok returned
  obtain ⟨_, _, computed, -⟩ := planBorrow_ok planned
  obtain ⟨-, risk, _, _, _, _, known, -⟩ := afterBorrow_ok computed
  exact ⟨risk, collateralParams_ok known⟩

/-- A settled position within its limit passes a withdrawal of nothing, which moves no coins. -/
theorem transact_redeem_nothing {sender : Principal} {denom : Denom} {r : PositionRecords}
    (known : e.collateralParams denom = .ok risk)
    (loaded : e.settledPosition sender risk false = .ok r)
    (redeemable : e.requireRedeemable r.position risk = .ok ()) (receiver : Option Principal) :
    (e.transact sender (.redeem ⟨receiver, .zero denom, .zero nativeDenom⟩)).result
      = .ok .redeem := by
  have computed : e.afterRedeem sender (.zero denom) (.zero nativeDenom) = .ok r := by
    have none := r.redeem_nothing denom nativeDenom
    simp only [afterRedeem_eq, bind_ok, Coin.requireDenom_ok, pure_ok]
    exact ⟨(), rfl, risk, known, r, loaded, r, none, (), redeemable, rfl⟩
  have planned : ∃ plan,
      e.plan sender (.redeem ⟨receiver, .zero denom, .zero nativeDenom⟩) = .ok plan ∧
        dropZeros plan.moves = [] ∧ plan.response = .redeem := by
    simp only [plan, planRedeem, bind_ok, pure_ok]
    exact ⟨_, ⟨r, computed, rfl⟩, rfl, rfl⟩
  obtain ⟨plan, planned, still, answered⟩ := planned
  have applied : e.ledger.apply (dropZeros plan.moves) = .ok e.ledger := by
    rw [still]
    rfl
  exact answered ▸ (transact_of_plan planned applied).1

section Run

variable {params : Params} (valid : params.validate = .ok ()) (accounts : ModuleAccounts)
  (actions : List Action)
include valid

/-- After every run from valid parameters, whoever has just borrowed can redeem nothing. -/
theorem run_borrow_redeem {sender : Principal} {r : BorrowRequest} {response : Response}
    (returned : (((fresh params accounts).run actions).transact sender (.borrow r)).result
      = .ok response) (receiver : Option Principal) :
    ((((fresh params accounts).run actions).transact sender (.borrow r)).engine.transact sender
      (.redeem ⟨receiver, .zero r.denom, .zero nativeDenom⟩)).result = .ok .redeem := by
  generalize reached : (fresh params accounts).run actions = e at returned ⊢
  have sound : e.Sound := reached ▸ run_sound (fresh_sound params accounts) actions
  have healthy : e.Healthy := reached ▸ run_healthy valid accounts actions
  obtain ⟨risk, registered, enabled⟩ := transact_borrow_registered returned
  have shares := healthy.store.collateralParams r.denom risk registered
  obtain ⟨left, limit, ledger, event, accepts, carried⟩ :=
    transact_accepts sound.keyed.named registered shares rfl returned
  -- The engine after the loan is reached by one more action.
  have sound' := act_sound sound (.transact sender (.borrow r))
  have healthy' := act_healthy sound healthy (.transact sender (.borrow r))
  change (e.transact sender (.borrow r)).engine.Sound at sound'
  change (e.transact sender (.borrow r)).engine.Healthy at healthy'
  rw [carried] at sound' healthy' ⊢
  let after := { e with ledger, store := e.store.update (.position left) }.record event
  obtain ⟨total, pool, -, -, loaded⟩ :=
    position_of_stored sound' healthy' accepts.stored registered
  -- The loan has settled the position in this block, and limits depend on prices alone.
  have current := PositionRecords.settle_of_current (r := ⟨total, pool, left.position⟩)
    accepts.settled risk.interestRate e.store.params.blocksPerYear
  have settled : after.settledPosition sender risk false = .ok ⟨total, pool, left.position⟩ :=
    bind_ok.mpr ⟨_, loaded, current⟩
  have redeemable : after.requireRedeemable left.position risk = .ok () :=
    requireRedeemable_iff.mpr ⟨limit, accepts.limited, accepts.covered⟩
  have known : after.collateralParams r.denom = .ok risk :=
    collateralParams_of_enabled registered enabled
  exact transact_redeem_nothing known settled redeemable receiver

end Run

/-- Loans and withdrawals apply the same test: of a position whose collateral has a value they
accept the same debts, except that a loan also accepts no debt at a limit between minus one and
zero, which no valid parameters lead to. So after every run from valid parameters, whoever has just
borrowed can redeem nothing. -/
theorem debtTests_agree :
    (∀ (e : Engine) (position : Position) (risk : CollateralParams)
      (price nativePrice value nativeValue : Decimal),
      e.price position.collateral.denom = .ok price → e.price nativeDenom = .ok nativePrice →
      position.valuesAt price nativePrice = .ok (value, nativeValue) → 0 < value →
      (position.requireBorrowable risk price nativePrice = .ok () ↔
        e.requireRedeemable position risk = .ok () ∨
          position.stableDebt.amount = 0 ∧ ∃ limit, e.debtLimit position risk = .ok limit ∧
            -1 < limit.maxDebtValue.toRat ∧ limit.maxDebtValue.toRat < 0) ∧
      (risk.validate = .ok () →
        (position.requireBorrowable risk price nativePrice = .ok () ↔
          e.requireRedeemable position risk = .ok ()))) ∧
    ∀ (params : Params), params.validate = .ok () →
      ∀ (accounts : ModuleAccounts) (actions : List Action) (sender : Principal)
        (r : BorrowRequest) (response : Response) (receiver : Option Principal),
      (((fresh params accounts).run actions).transact sender (.borrow r)).result = .ok response →
      ((((fresh params accounts).run actions).transact sender (.borrow r)).engine.transact sender
        (.redeem ⟨receiver, .zero r.denom, .zero nativeDenom⟩)).result = .ok .redeem := by
  refine ⟨?_, fun params valid accounts actions sender r response receiver returned =>
    run_borrow_redeem valid accounts actions returned receiver⟩
  intro e position risk price nativePrice value nativeValue priced nativePriced valued positive
  refine ⟨?_, fun valid =>
    requireBorrowable_iff_requireRedeemable valid priced nativePriced valued positive⟩
  rw [requireBorrowable_iff priced nativePriced valued positive, requireRedeemable_iff]
  constructor
  · rintro ⟨limit, limited, covered | ⟨none, above⟩⟩
    · exact .inl ⟨limit, limited, covered⟩
    · -- No debt is within a limit that is not negative.
      rcases le_or_gt 0 limit.maxDebtValue.toRat with nonneg | negative
      · exact .inl ⟨limit, limited, by rwa [none, Nat.cast_zero]⟩
      · exact .inr ⟨none, limit, limited, above, negative⟩
  · rintro (⟨limit, limited, covered⟩ | ⟨none, limit, limited, above, -⟩)
    · exact ⟨limit, limited, .inl covered⟩
    · exact ⟨limit, limited, .inr ⟨none, above⟩⟩

/-- With ether worth 1000 and one locked unit at 0.7 for a ratio of 0.05, a debt of 602 passes both
tests; and after a loan of it nothing can be redeemed. -/
theorem debtTests_agree_lendingDesk :
    let borrower : Principal := ⟨[1], by decide⟩
    let lender : Principal := ⟨[2], by decide⟩
    let risk := etherRisk (percent 80) (percent 70) (percent 60) (percent 5)
    let actions : List Action :=
      [.registerCollateral risk, .setRate "ether" 1, .setRate nativeDenom 1,
        .fund (.user borrower) ⟨"ether", 1000⟩, .fund (.user borrower) ⟨nativeDenom, 1⟩,
        .transact borrower (.deposit ⟨none, ⟨"ether", 1000⟩, ⟨nativeDenom, 1⟩⟩)]
    let e := (fresh .initial .initial).run actions
    let position : Position := ⟨borrower, ⟨"ether", 1000⟩, ⟨stableDenom, 602⟩, ⟨nativeDenom, 1⟩,
      ⟨stableDenom, 0⟩, 0⟩
    let loan := e.transact borrower (.borrow ⟨some lender, "ether", ⟨stableDenom, 602⟩⟩)
    risk.validate = .ok () ∧ Params.initial.validate = .ok () ∧ e.price "ether" = .ok 1 ∧
      e.price nativeDenom = .ok 1 ∧
      position.valuesAt 1 1 = .ok ({ coefficient := 1000, scale := 0 }, 1) ∧
      position.requireBorrowable risk 1 1 = .ok () ∧ e.requireRedeemable position risk = .ok () ∧
      loan.result = .ok (.borrow ⟨⟨stableDenom, 0⟩⟩) ∧
      (loan.engine.transact borrower
        (.redeem ⟨none, .zero "ether", .zero nativeDenom⟩)).result = .ok .redeem := by
  intro borrower lender risk actions e position loan
  have shares : risk.validate = .ok () := by decide +kernel
  have valid : Params.initial.validate = .ok () := by decide +kernel
  have priced : e.price "ether" = .ok 1 := by decide +kernel
  have nativePriced : e.price nativeDenom = .ok 1 := by decide +kernel
  have valued : position.valuesAt 1 1 = .ok ({ coefficient := 1000, scale := 0 }, 1) := by
    decide +kernel
  have borrowable : position.requireBorrowable risk 1 1 = .ok () := by decide +kernel
  have returned : loan.result = .ok (.borrow ⟨⟨stableDenom, 0⟩⟩) := by decide +kernel
  obtain ⟨tests, loans⟩ := debtTests_agree
  have agree := (tests e position risk 1 1 _ 1 priced nativePriced valued (by decide)).2 shares
  exact ⟨shares, valid, priced, nativePriced, valued, borrowable, agree.mp borrowable, returned,
    loans .initial valid .initial actions borrower _ _ none returned⟩

/-- Parameters that have not been validated can have a negative loan-to-value. Ether worth 1000 then
has the limit -0.5, and a position without debt passes the test of a loan but not that of a
withdrawal. -/
theorem negativeLoanToValue_tests_differ :
    let owner : Principal := ⟨[1], by decide⟩
    let risk := etherRisk (percent 80) (percent 70) { coefficient := -5, scale := 4 } 0
    let e := (fresh .initial .initial).run [.setRate "ether" 1, .setRate nativeDenom 1]
    let position := { Position.opened owner "ether" 0 with collateral := ⟨"ether", 1000⟩ }
    e.price "ether" = .ok 1 ∧ e.price nativeDenom = .ok 1 ∧
      position.valuesAt 1 1 = .ok ({ coefficient := 1000, scale := 0 }, 0) ∧
      position.requireBorrowable risk 1 1 = .ok () ∧
      e.requireRedeemable position risk
        = .error (.rejected (.debtAboveLimit "0" "-0.5000")) := by
  decide +kernel

end Engine

end Stablecoin
