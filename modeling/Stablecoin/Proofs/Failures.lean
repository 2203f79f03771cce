import Stablecoin.Engine.Query
import Stablecoin.Proofs.Exit
import Stablecoin.Proofs.GracefulLoans
import Stablecoin.Proofs.GracefulSwaps

/-!
# What an engine answers instead of a value

With validated parameters no operation faults, with one exception: the cost of selling backing when
the bonus is the largest decimal. In the states that runs lead to, no operation is refused for a
negative amount or for invalid parameters either, at any prices and any height.
-/
namespace Stablecoin

/-- Where the books agree, the pool covers the debt of each of its positions, and the total covers
the pool. -/
theorem Store.BooksAgree.debtsCovered {s : Store} (agree : s.BooksAgree) : s.DebtsCovered := by
  intro owner denom total pool position totalled pooled stored
  have part := le_positionSum stored (·.stableDebt.amount)
  have bounded := s.collateralPools.countAt_le_sum
    (f := fun _ pool => (pool.stableDebt.amount : Int)) (fun _ _ => Int.natCast_nonneg _) denom
  have poolDebt := agree.debt denom
  have allDebt := agree.allDebt
  rw [Table.countAt, pooled, Option.elim_some] at bounded
  rw [Store.collateralPool, pooled, Option.getD_some] at poolDebt
  rw [Store.allCollateral, totalled, Option.getD_some] at allDebt
  refine ⟨agree.interest owner denom position stored, ?_, ?_⟩ <;> dsimp only <;> omega

namespace Engine

/-- A transaction, an estimate or a query about backing. -/
inductive Operation where
  | transact (sender : Principal) (request : Request)
  | mintCost (mintOut : Coin) (denom : Denom) (fullBacking : Bool)
  | estimateMint (request : MintRequest)
  | burnCost (backingMax nativeMax : Coin)
  | estimateBurn (request : BurnRequest)
  | buybackCost (backingOut : Coin)
  | estimateBuyback (request : BuybackRequest)
  | rebackCost (nativeOut : Coin) (denom : Denom)
  | estimateReback (request : RebackRequest)
  | estimateBorrow (sender : Principal) (request : BorrowRequest)
  | excessBacking
  | backingValue
  | backingTotal

/-- An operation gives no value but a failure. -/
def FailsWith (e : Engine) (failure : Failure) : Operation → Prop
  | .transact sender request => (e.transact sender request).result = .error failure
  | .mintCost mintOut denom fullBacking => e.mintCost mintOut denom fullBacking = .error failure
  | .estimateMint request => e.estimateMint request = .error failure
  | .burnCost backingMax nativeMax => e.burnCost backingMax nativeMax = .error failure
  | .estimateBurn request => e.estimateBurn request = .error failure
  | .buybackCost backingOut => e.buybackCost backingOut = .error failure
  | .estimateBuyback request => e.estimateBuyback request = .error failure
  | .rebackCost nativeOut denom => e.rebackCost nativeOut denom = .error failure
  | .estimateReback request => e.estimateReback request = .error failure
  | .estimateBorrow sender request => e.estimateBorrow sender request = .error failure
  | .excessBacking => e.excessBacking = .error failure
  | .backingValue => e.backingValue = .error failure
  | .backingTotal => e.backingTotal = .error failure

variable {e : Engine} {excused : Failure → Prop}

section Validated

variable (validated : e.store.Validated) (covered : e.store.DebtsCovered ∨ ExcusesShort excused)
include validated covered

theorem plan_graceful (sender : Principal) (request : Request) :
    Graceful excused (fun _ => True) (e.plan sender request) := by
  cases request with
  | mint r => exact planMint_graceful validated sender r
  | burn r => exact planBurn_graceful validated sender r
  | buyback r => exact planBuyback_graceful validated sender r
  | reback r => exact planReback_graceful validated sender r
  | borrow r => exact planBorrow_graceful validated covered sender r
  | repay r => exact planRepay_graceful validated covered sender r
  | deposit r => exact planDeposit_graceful validated covered sender r
  | redeem r => exact planRedeem_graceful validated covered sender r
  | liquidate r => exact planLiquidate_graceful validated covered sender r

/-- A refusal of the ledger is an ordinary rejection. -/
theorem transact_graceful (sender : Principal) (request : Request) :
    Graceful excused (fun _ => True) (e.transact sender request).result := by
  have planned := plan_graceful validated covered sender request
  unfold transact
  split
  next failure refused => exact planned.failure refused
  next plan _ =>
    unfold carryOut
    dsimp only
    split
    next => exact .inl rfl
    next => exact .pure trivial

theorem estimateBorrow_graceful (sender : Principal) (r : BorrowRequest) :
    Graceful excused (fun _ => True) (e.estimateBorrow sender r) :=
  (afterBorrow_graceful validated covered _ _ _).bind fun _ _ => .pure trivial

/-- Only the cost of selling backing needs the bonus in range. -/
theorem failsWith_ordinary_or_excused {failure : Failure} (operation : Operation)
    (inRange : ∀ nativeOut denom, operation = .rebackCost nativeOut denom →
      e.store.params.rebackBonus ≠ .largest ∨ excused (.faulted .additionOverflowed))
    (failing : e.FailsWith failure operation) : failure.Ordinary ∨ excused failure := by
  cases operation with
  | transact => exact (transact_graceful validated covered _ _).failure failing
  | mintCost => exact (mintCost_graceful validated _ _ _).failure failing
  | estimateMint => exact (mintQuote_graceful validated _ _ _).failure failing
  | burnCost => exact (burnCost_graceful validated _ _).failure failing
  | estimateBurn => exact (burnQuote_graceful validated _ _).failure failing
  | buybackCost => exact (buybackCost_graceful validated _).failure failing
  | estimateBuyback => exact (buybackQuote_graceful validated _ _).failure failing
  | rebackCost nativeOut denom =>
    exact (rebackCost_graceful validated _ _ (inRange nativeOut denom rfl)).failure failing
  | estimateReback => exact (rebackQuote_graceful validated _).failure failing
  | estimateBorrow => exact (estimateBorrow_graceful validated covered _ _).failure failing
  | excessBacking => exact excessBacking_graceful.failure failing
  | backingValue => exact backingValue_graceful.failure failing
  | backingTotal => exact backingTotal_graceful.failure failing

end Validated

/-! ### Faults -/

/-- With validated parameters an operation that fails is refused for a stated cause, whatever the
records, prices, ledger and height. The one exception is the cost of selling backing when the bonus
is the largest decimal, to which one cannot be added. -/
theorem failsWith_rejected (validated : e.store.Validated) (operation : Operation)
    (failure : Failure) (failing : e.FailsWith failure operation) :
    (∃ cause, failure = .rejected cause) ∨
      failure = .faulted .additionOverflowed ∧ e.store.params.rebackBonus = .largest ∧
        ∃ nativeOut denom, operation = .rebackCost nativeOut denom := by
  let excused (f : Failure) : Prop := (∃ cause, f = .rejected cause) ∨
    f = .faulted .additionOverflowed ∧ e.store.params.rebackBonus = .largest ∧
      ∃ nativeOut denom, operation = .rebackCost nativeOut denom
  have short : ExcusesShort excused := fun _ => .inl ⟨_, rfl⟩
  have answered : failure.Ordinary ∨ excused failure := by
    refine failsWith_ordinary_or_excused validated (.inr short) operation
      (fun nativeOut denom reselling => ?_) failing
    by_cases largest : e.store.params.rebackBonus = .largest
    · exact .inr (.inr ⟨rfl, largest, nativeOut, denom, reselling⟩)
    · exact .inl largest
  rcases answered with ordinary | known
  · cases failure with
    | rejected cause => exact .inl ⟨cause, rfl⟩
    | faulted fault => exact ordinary.elim
  · exact known

/-- Withdrawing more collateral than a position holds is refused for a stated cause. -/
theorem failsWith_rejected_loanRun :
    let e := (fresh .initial .initial).run loanRun
    let borrower : Principal := ⟨[1], by decide⟩
    let operation : Operation :=
      .transact borrower (.redeem ⟨none, ⟨"ether", 1000⟩, ⟨nativeDenom, 0⟩⟩)
    let refused : Failure := .rejected (.collateralInsufficient ⟨"ether", 1000⟩ ⟨"ether", 900⟩)
    e.store.Validated ∧ e.FailsWith refused operation ∧
      ((∃ cause, refused = .rejected cause) ∨
        refused = .faulted .additionOverflowed ∧ e.store.params.rebackBonus = .largest ∧
          ∃ nativeOut denom, operation = .rebackCost nativeOut denom) := by
  intro e borrower operation refused
  have failed : (e.transact borrower
      (.redeem ⟨none, ⟨"ether", 1000⟩, ⟨nativeDenom, 0⟩⟩)).result = .error refused := by
    decide +kernel
  have healthy : e.Healthy := run_healthy rfl .initial loanRun
  have validated : e.store.Validated := healthy.store.validated
  exact ⟨validated, failed, failsWith_rejected validated operation refused failed⟩

/-- Validation accepts the largest bonus, and the cost of selling backing then faults. -/
theorem largestBonus_faults :
    let e := (fresh .initial .initial).run
      [.setParams { Params.initial with rebackBonus := .largest },
        .registerBacking
          { denom := "ether"
            enabled := true
            maxBacking := none
            maxStableMint := none
            mintFee := none
            burnFee := none
            buybackFee := none
            rebackFee := none },
        .setRate "ether" 1, .setRate nativeDenom 1]
    e.store.Validated ∧
      e.FailsWith (.faulted .additionOverflowed) (.rebackCost ⟨nativeDenom, 100⟩ "ether") := by
  intro e
  have healthy : e.Healthy := run_healthy rfl .initial _
  have failed : e.rebackCost ⟨nativeDenom, 100⟩ "ether"
      = .error (.faulted .additionOverflowed) := by
    decide +kernel
  exact ⟨healthy.store.validated, failed⟩

/-! ### Defensive rejections -/

/-- After every run from valid parameters, at whatever prices and height, no operation is refused
for invalid parameters or a negative amount. -/
theorem run_failsOrdinarily {params : Params} (valid : params.validate = .ok ())
    (accounts : ModuleAccounts) (actions : List Action) (prices : PriceTable) (height : Height)
    (operation : Operation) (failure : Failure)
    (failing : { (fresh params accounts).run actions with prices, height }.FailsWith failure
      operation) :
    (∀ reason, failure ≠ .rejected (.invalidParams reason)) ∧
      ∀ value, failure ≠ .rejected (.negativeAmount value) := by
  have healthy := run_healthy valid accounts actions
  -- Validation and the books do not depend on prices and height.
  let e : Engine := { (fresh params accounts).run actions with prices, height }
  have validated : e.store.Validated := healthy.store.validated
  have covered : e.store.DebtsCovered := healthy.books.debtsCovered
  let excused (f : Failure) : Prop := ∃ fault, f = .faulted fault
  have answered : failure.Ordinary ∨ excused failure :=
    failsWith_ordinary_or_excused validated (.inl covered) operation (fun _ _ _ => .inr ⟨_, rfl⟩)
      failing
  rcases answered with ordinary | ⟨fault, rfl⟩
  · constructor
    · rintro reason rfl
      cases ordinary
    · rintro value rfl
      cases ordinary
  · exact ⟨fun _ => nofun, fun _ => nofun⟩

/-- Millions of blocks later and at other prices, a withdrawal with interest due is refused because
of the debt that it would leave. -/
theorem run_failsOrdinarily_loanRun :
    let borrower : Principal := ⟨[1], by decide⟩
    let prices : PriceTable := (Table.empty.insert "ether" (percent 60)).insert nativeDenom 1
    let e : Engine := { (fresh .initial .initial).run loanRun with prices, height := 9000000 }
    let refused : Failure := .rejected (.debtAboveLimit "529" "252.0000")
    (e.transact borrower (.redeem ⟨none, ⟨"ether", 300⟩, ⟨nativeDenom, 0⟩⟩)).result
        = .error refused ∧
      (∀ reason, refused ≠ .rejected (.invalidParams reason)) ∧
        ∀ value, refused ≠ .rejected (.negativeAmount value) := by
  intro borrower prices e refused
  have failed : (e.transact borrower
      (.redeem ⟨none, ⟨"ether", 300⟩, ⟨nativeDenom, 0⟩⟩)).result = .error refused := by
    decide +kernel
  exact ⟨failed, run_failsOrdinarily rfl .initial loanRun prices 9000000
    (.transact borrower (.redeem ⟨none, ⟨"ether", 300⟩, ⟨nativeDenom, 0⟩⟩)) refused failed⟩

end Engine

end Stablecoin
