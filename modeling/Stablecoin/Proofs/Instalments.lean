import Stablecoin.Proofs.Commutation
import Stablecoin.Proofs.Healthy
import Stablecoin.Proofs.LiquidationGap
import Stablecoin.Proofs.ModuleFunds

/-!
# Repaying in instalments

A repayment takes no more than is owed, and interest before principal. Two repayments in one block
take together what a single one for both amounts takes: the first settles the interest up to the
block, the second finds nothing to settle, and both caps split over the two as the debt does. So
records and ledger end alike.
-/
namespace Stablecoin

namespace PositionRecords

/-- How much is taken of what an owner offers to repay: no more than is owed. -/
def taken (r : PositionRecords) (offered : Nat) : Nat := min r.position.stableDebt.amount offered

/-- The part of it that settles interest, which comes first. -/
def interestTaken (r : PositionRecords) (offered : Nat) : Nat :=
  min r.position.interest.amount (r.taken offered)

/-- The parts of a repayment. -/
def repayment (r : PositionRecords) (offered : Nat) : Repayment where
  repayIn := ⟨stableDenom, r.taken offered⟩
  repayInterest := ⟨stableDenom, r.interestTaken offered⟩
  repayPrincipal := ⟨stableDenom, r.taken offered - r.interestTaken offered⟩

/-- The records after a repayment. -/
def repaid (r : PositionRecords) (offered : Nat) : PositionRecords where
  total :=
    { r.total with
      stableDebt := ⟨r.total.stableDebt.denom, r.total.stableDebt.amount - r.taken offered⟩ }
  pool :=
    { r.pool with
      stableDebt := ⟨r.pool.stableDebt.denom, r.pool.stableDebt.amount - r.taken offered⟩ }
  position :=
    { r.position with
      stableDebt :=
        ⟨r.position.stableDebt.denom, r.position.stableDebt.amount - r.taken offered⟩
      interest :=
        ⟨r.position.interest.denom, r.position.interest.amount - r.interestTaken offered⟩ }

/-- What it takes for a repayment to go through: some debt, which pool and total cover. -/
structure Repayable (r : PositionRecords) (offered : Nat) : Prop where
  indebted : r.position.stableDebt.amount ≠ 0
  pooled : r.taken offered ≤ r.pool.stableDebt.amount
  totalled : r.taken offered ≤ r.total.stableDebt.amount

section Splitting

variable (r : PositionRecords) (a b : Nat)

theorem taken_add : r.taken (a + b) = r.taken a + (r.repaid a).taken b := by
  simp only [taken, repaid]
  omega

theorem interestTaken_le : r.interestTaken a ≤ r.taken a := Nat.min_le_right _ _

/-- The second instalment settles what interest the first has left, so both settle as much as one
repayment does. -/
theorem interestTaken_add :
    r.interestTaken (a + b) = r.interestTaken a + (r.repaid a).interestTaken b := by
  simp only [interestTaken, taken, repaid]
  omega

theorem repaid_add : r.repaid (a + b) = (r.repaid a).repaid b := by
  have debt (owed : Nat) :
      owed - r.taken (a + b) = owed - r.taken a - (r.repaid a).taken b := by
    rw [taken_add, Nat.sub_add_eq]
  have interest : r.position.interest.amount - r.interestTaken (a + b)
      = r.position.interest.amount - r.interestTaken a - (r.repaid a).interestTaken b := by
    rw [interestTaken_add, Nat.sub_add_eq]
  rw [repaid, interest]
  simp only [debt]
  rfl

variable {r a b}

theorem Repayable.add (first : r.Repayable a) (second : (r.repaid a).Repayable b) :
    r.Repayable (a + b) where
  indebted := first.indebted
  pooled := by
    have pooled := first.pooled
    have later : (r.repaid a).taken b ≤ r.pool.stableDebt.amount - r.taken a := second.pooled
    rw [taken_add]
    omega
  totalled := by
    have totalled := first.totalled
    have later : (r.repaid a).taken b ≤ r.total.stableDebt.amount - r.taken a := second.totalled
    rw [taken_add]
    omega

end Splitting

end PositionRecords

/-! ### Batches -/

/-- What a batch touches is touched by one of its coins that are not zero. -/
theorem touches_dropZeros {ops : List LedgerOp} {account : Account} {denom : Denom} :
    (∃ op ∈ dropZeros ops, op.Touches account denom) ↔
      ∃ op ∈ ops, ∃ c ∈ op.coins, 0 < c.amount ∧
        (op.source = some account ∨ op.target = some account) ∧ c.denom = denom := by
  have kept (op : LedgerOp) : (∃ left, op.dropZeros? = some left ∧ left.Touches account denom) ↔
      ∃ c ∈ op.coins, 0 < c.amount ∧
        (op.source = some account ∨ op.target = some account) ∧ c.denom = denom := by
    unfold LedgerOp.dropZeros?
    cases positive : op.coins.filter Coin.isPositive with
    | nil =>
      have none : ∀ c ∈ op.coins, c.amount = 0 := by
        simpa [Coin.isPositive, List.filter_eq_nil_iff] using positive
      constructor
      · rintro ⟨_, gone, -⟩
        cases gone
      · rintro ⟨c, member, some', -⟩
        exact absurd (none c member) some'.ne'
    | cons first rest =>
      simp only [Option.some.injEq, exists_eq_left', LedgerOp.Touches, LedgerOp.coins_withCoins,
        LedgerOp.source_withCoins, LedgerOp.target_withCoins, ← positive, List.mem_filter,
        Coin.isPositive, decide_eq_true_eq, and_assoc]
  simp only [dropZeros, List.mem_filterMap, ← kept]
  constructor
  · rintro ⟨left, ⟨op, member, same⟩, touched⟩
    exact ⟨op, member, left, same, touched⟩
  · rintro ⟨op, member, left, same, touched⟩
    exact ⟨left, ⟨op, member, same⟩, touched⟩

/-- The coin movements of a repayment. -/
def repayMoves (sender : Principal) (accounts : ModuleAccounts) (parts : Repayment) :
    List LedgerOp :=
  [.sendToModule sender accounts.module [parts.repayIn],
    .burn accounts.module [parts.repayPrincipal],
    .sendBetweenModules accounts.module accounts.feeCollector [parts.repayInterest]]

/-- A repayment takes all its coins from somewhere. -/
theorem not_mints_repayMoves (sender : Principal) (accounts : ModuleAccounts) (parts : Repayment)
    (denom : Denom) : ¬∃ op ∈ dropZeros (repayMoves sender accounts parts), op.Mints denom := by
  rintro ⟨op, member, _, -, minted, -⟩
  obtain ⟨original, asked, same⟩ := mem_dropZeros member
  have taken : ∀ op ∈ repayMoves sender accounts parts, op.source ≠ none := by
    simp [repayMoves, LedgerOp.source]
  exact taken original asked (same.trans minted)

namespace PositionRecords

variable (r : PositionRecords) (a b : Nat)

theorem repayment_add : r.repayment (a + b) =
    { repayIn := ⟨stableDenom, r.taken a + (r.repaid a).taken b⟩
      repayInterest := ⟨stableDenom, r.interestTaken a + (r.repaid a).interestTaken b⟩
      repayPrincipal := ⟨stableDenom,
        (r.taken a - r.interestTaken a)
          + ((r.repaid a).taken b - (r.repaid a).interestTaken b)⟩ } := by
  have first := r.interestTaken_le a
  have second := (r.repaid a).interestTaken_le b
  have principal : r.taken a + (r.repaid a).taken b
        - (r.interestTaken a + (r.repaid a).interestTaken b)
      = (r.taken a - r.interestTaken a)
        + ((r.repaid a).taken b - (r.repaid a).interestTaken b) := by
    omega
  rw [repayment, taken_add, interestTaken_add, principal]

variable (sender : Principal) (accounts : ModuleAccounts) (account : Account) (denom : Denom)

theorem batchFlow_instalments :
    batchFlow (repayMoves sender accounts (r.repayment (a + b))) account denom
      = batchFlow (repayMoves sender accounts (r.repayment a)) account denom
        + batchFlow (repayMoves sender accounts ((r.repaid a).repayment b)) account denom := by
  have flow (op : LedgerOp) (n m : Nat) :
      (op.withCoins [⟨stableDenom, n + m⟩]).flow account denom
        = (op.withCoins [⟨stableDenom, n⟩]).flow account denom
          + (op.withCoins [⟨stableDenom, m⟩]).flow account denom := by
    simp only [LedgerOp.flow, LedgerOp.source_withCoins, LedgerOp.target_withCoins,
      LedgerOp.coins_withCoins, amountIn_cons, amountIn_nil, Coin.inDenom]
    grind
  have paid := flow (.sendToModule sender accounts.module [])
  have burned := flow (.burn accounts.module [])
  have passedOn := flow (.sendBetweenModules accounts.module accounts.feeCollector [])
  simp only [LedgerOp.withCoins] at paid burned passedOn
  rw [repayment_add]
  simp only [repayMoves, batchFlow_cons, batchFlow_nil, paid, burned, passedOn, repayment]
  omega

theorem batchIssue_instalments :
    batchIssue (repayMoves sender accounts (r.repayment (a + b))) denom
      = batchIssue (repayMoves sender accounts (r.repayment a)) denom
        + batchIssue (repayMoves sender accounts ((r.repaid a).repayment b)) denom := by
  rw [repayment_add]
  simp only [repayMoves, batchIssue_cons, batchIssue_nil, LedgerOp.issue_sendToModule,
    LedgerOp.issue_burn, LedgerOp.issue_sendBetweenModules, amountIn_cons, amountIn_nil, repayment,
    Coin.inDenom]
  split <;> omega

/-- The parts of a repayment are zero exactly if they are zero in both instalments. -/
theorem touches_instalments :
    (∃ op ∈ dropZeros (repayMoves sender accounts (r.repayment (a + b))),
      op.Touches account denom) ↔
    (∃ op ∈ dropZeros (repayMoves sender accounts (r.repayment a)), op.Touches account denom) ∨
      ∃ op ∈ dropZeros (repayMoves sender accounts ((r.repaid a).repayment b)),
        op.Touches account denom := by
  rw [repayment_add]
  simp only [touches_dropZeros, repayMoves, repayment, List.mem_cons, List.not_mem_nil, or_false,
    exists_eq_or_imp, exists_eq_left]
  simp only [LedgerOp.coins, LedgerOp.source, LedgerOp.target, List.mem_singleton, exists_eq_left,
    Nat.add_pos_iff_pos_or_pos, or_and_right (a := 0 < _)]
  exact (or_congr_right or_or_or_comm).trans or_or_or_comm

end PositionRecords

namespace Ledger

/-- Leaving out zero coins leaves out nothing that moves. -/
theorem apply_dropZeros_shifted {l after : Ledger} {ops : List LedgerOp}
    (applied : l.apply (dropZeros ops) = .ok after) :
    l.Shifted (batchFlow ops) (batchIssue ops) after := by
  have flow : batchFlow (dropZeros ops) = batchFlow ops := funext₂ (batchFlow_dropZeros ops)
  have issue : batchIssue (dropZeros ops) = batchIssue ops := funext (batchIssue_dropZeros ops)
  exact issue ▸ flow ▸ apply_shifted applied

variable {l once both : Ledger} {r : PositionRecords} {a b : Nat} {sender : Principal}
  {accounts : ModuleAccounts} (conserved : l.Conserved)
  (applied : l.apply (dropZeros (repayMoves sender accounts (r.repayment a))) = .ok once)
  (later : once.apply (dropZeros (repayMoves sender accounts ((r.repaid a).repayment b))) = .ok both)
include conserved applied later

/-- Instalments move what a single repayment moves. -/
theorem instalments_shifted :
    l.Shifted (batchFlow (repayMoves sender accounts (r.repayment (a + b))))
      (batchIssue (repayMoves sender accounts (r.repayment (a + b)))) both := by
  have shifted := (apply_dropZeros_shifted applied).trans (apply_dropZeros_shifted later)
  refine ⟨fun account denom => ?_, fun _ denom => ?_, shifted.conserved⟩
  · rw [shifted.balance, r.batchFlow_instalments]
  · rw [shifted.supply conserved, r.batchIssue_instalments]

/-- A single repayment of both amounts leaves the ledger that the instalments leave. -/
theorem instalments_eq {whole : Ledger}
    (applied' : l.apply (dropZeros (repayMoves sender accounts (r.repayment (a + b)))) = .ok whole) :
    whole = both := by
  have listed := (apply_listed applied).trans (apply_listed later)
  refine eq_of_shifted conserved (apply_dropZeros_shifted applied')
    (instalments_shifted conserved applied later) (apply_listed applied') (listed.congr ?_ ?_)
  · exact fun account denom => (r.touches_instalments a b sender accounts account denom).symm
  · exact fun denom => iff_of_false
      (not_or.mpr ⟨not_mints_repayMoves sender accounts _ denom,
        not_mints_repayMoves sender accounts _ denom⟩)
      (not_mints_repayMoves sender accounts _ denom)

/-- If the sender could pay both instalments, nobody is short when both amounts are repaid at
once. -/
theorem instalments_pay (valid : l.Valid)
    (covered : l.Covers (repayMoves sender accounts (r.repayment (a + b)))) :
    ∃ whole, l.apply (dropZeros (repayMoves sender accounts (r.repayment (a + b)))) = .ok whole := by
  cases failed : l.apply (dropZeros (repayMoves sender accounts (r.repayment (a + b)))) with
  | ok whole => exact ⟨whole, rfl⟩
  | error error =>
    exfalso
    obtain ⟨op, coin, middle, user, reached, source, short, -⟩ :=
      covered.short_user valid conserved (by simp [repayMoves, LedgerOp.source]) failed
    -- Only the payment comes from a user, and it comes first.
    obtain ⟨payer, rfl, rfl⟩ := reached.first rfl (by simp [LedgerOp.source]) source
    cases payer
    have left := (instalments_shifted conserved applied later).balance (.user sender) stableDenom
    have paid : batchFlow (repayMoves sender accounts (r.repayment (a + b))) (.user sender)
        stableDenom = -(r.taken (a + b) : Int) := by
      simp [repayMoves, PositionRecords.repayment, LedgerOp.flow, LedgerOp.source, LedgerOp.target, LedgerOp.coins,
        Coin.inDenom]
    have amount : middle.balance (.user sender) stableDenom < r.taken (a + b) := short
    omega

end Ledger

/-! ### Repaying -/

/-- Of two records written for one position the later ones stay. -/
theorem Store.update_update (s : Store) {r r' : PositionRecords} {owner : Principal}
    {denom : Denom} (named : (r.position.owner, r.position.collateral.denom) = (owner, denom))
    (pooled : r.pool.collateral.denom = denom)
    (named' : (r'.position.owner, r'.position.collateral.denom) = (owner, denom))
    (pooled' : r'.pool.collateral.denom = denom) :
    (s.update (.position r)).update (.position r') = s.update (.position r') := by
  rw [Engine.update_position _ named' pooled', Engine.update_position s named pooled,
    Engine.update_position s named' pooled']
  simp only [Table.insert_insert]

/-- The records of the second instalment replace those of the first. -/
theorem Store.update_repaid (s : Store) {r : PositionRecords} {owner : Principal} {denom : Denom}
    (named : (r.position.owner, r.position.collateral.denom) = (owner, denom))
    (pooled : r.pool.collateral.denom = denom) (a b : Nat) :
    (s.update (.position (r.repaid a))).update (.position ((r.repaid a).repaid b))
      = s.update (.position (r.repaid (a + b))) := by
  rw [PositionRecords.repaid_add]
  exact s.update_update (r := r.repaid a) named pooled named pooled

namespace Engine

variable {e : Engine} {owner sender : Principal} {denom : Denom} {risk : CollateralParams}

/-- A repayment takes its parts off the settled records. -/
theorem afterRepay_iff {offered : Coin} {parts : Repayment} {after : PositionRecords} :
    e.afterRepay owner denom offered = .ok (parts, after) ↔
      offered.denom = stableDenom ∧ ∃ risk settled, e.collateralParams denom = .ok risk ∧
        e.settledPosition owner risk false = .ok settled ∧ settled.Repayable offered.amount ∧
        settled.repayment offered.amount = parts ∧ settled.repaid offered.amount = after := by
  simp only [afterRepay, bind_ok, Coin.requireDenom_ok, require_ok, Coin.sub_ok, pure_ok,
    Prod.mk.injEq]
  constructor
  · rintro ⟨_, stable, risk, known, settled, loaded, _, indebted, _, ⟨_, rfl⟩, _, ⟨_, rfl⟩, _,
      ⟨pooled, rfl⟩, _, ⟨totalled, rfl⟩, rfl, rfl⟩
    exact ⟨stable, risk, settled, known, loaded,
      ⟨by simpa [Coin.isZero] using indebted, pooled, totalled⟩, rfl, rfl⟩
  · rintro ⟨stable, risk, settled, known, loaded, ⟨indebted, pooled, totalled⟩, rfl, rfl⟩
    exact ⟨(), stable, risk, known, settled, loaded, (), by simpa [Coin.isZero] using indebted, _,
      ⟨Nat.min_le_left _ _, rfl⟩, _, ⟨Nat.min_le_left _ _, rfl⟩, _, ⟨pooled, rfl⟩, _,
      ⟨totalled, rfl⟩, rfl, rfl⟩

/-- What repaying from settled records comes to. -/
def repayPlan (sender : Principal) (accounts : ModuleAccounts) (denom : Denom)
    (settled : PositionRecords) (offered : Nat) : Plan :=
  let parts := settled.repayment offered
  { moves := repayMoves sender accounts parts
    update := .position (settled.repaid offered)
    event := .burnByCollateral sender denom parts.repayIn parts.repayInterest
    notice := sender.text ++ " repaid " ++ parts.repayIn.text ++ " of " ++ denom ++
      " debt (" ++ parts.repayInterest.text ++ " interest)"
    response := .repay ⟨parts.repayIn, parts.repayInterest⟩ }

theorem plan_repay_iff {n : Nat} {plan : Plan} :
    e.plan sender (.repay ⟨denom, ⟨stableDenom, n⟩⟩) = .ok plan ↔
      ∃ risk settled, e.collateralParams denom = .ok risk ∧
        e.settledPosition sender risk false = .ok settled ∧ settled.Repayable n ∧
        repayPlan sender e.accounts denom settled n = plan := by
  simp only [Engine.plan, planRepay, bind_ok, pure_ok, Prod.exists, afterRepay_iff]
  constructor
  · rintro ⟨_, _, ⟨-, risk, settled, known, loaded, repayable, rfl, rfl⟩, rfl⟩
    exact ⟨risk, settled, known, loaded, repayable, rfl⟩
  · rintro ⟨risk, settled, known, loaded, repayable, rfl⟩
    exact ⟨_, _, ⟨trivial, risk, settled, known, loaded, repayable, rfl, rfl⟩, rfl⟩

/-- Settled records carry the names that they were asked for. -/
theorem settledPosition_named {settled : PositionRecords} {mayOpen : Bool} (keyed : e.store.Keyed)
    (loaded : e.settledPosition owner risk mayOpen = .ok settled) :
    (settled.position.owner, settled.position.collateral.denom) = (owner, risk.denom) ∧
      settled.pool.collateral.denom = risk.denom := by
  obtain ⟨before, found, accrued⟩ := settledPosition_ok loaded
  obtain ⟨owned, of, pooled⟩ := position_named keyed found
  obtain ⟨_, changed⟩ := PositionRecords.settle_changed accrued
  exact ⟨by rw [changed.owner, changed.denom, owned, of], by rw [changed.poolDenom, pooled]⟩

/-- Records that were settled in this block and have been written are loaded as they were
written. -/
theorem settledPosition_update (left : PositionRecords) {ledger : Ledger} {event : Event}
    (named : (left.position.owner, left.position.collateral.denom) = (owner, risk.denom))
    (pooled : left.pool.collateral.denom = risk.denom)
    (current : blocksBetween left.position.settledAt e.height = 0) :
    ({ e with ledger, store := e.store.update (.position left) }.record event).settledPosition owner
      risk false = .ok left := by
  have found : ({ e with ledger, store := e.store.update (.position left) }.record event).position
      owner risk.denom false = .ok left := by
    simp [Engine.position, Engine.record, update_position _ named pooled, pure, Except.pure]
  exact bind_ok.mpr ⟨left, found, PositionRecords.settle_of_current current _ _⟩

/-- Repaying in two instalments in one block is repaying both amounts at once. -/
theorem transact_repay_instalments (sound : e.Sound) (valid : e.ledger.Valid) {a b : Nat}
    {first second : RepayResponse} :
    let once := e.transact sender (.repay ⟨denom, ⟨stableDenom, a⟩⟩)
    let both := once.engine.transact sender (.repay ⟨denom, ⟨stableDenom, b⟩⟩)
    let whole := e.transact sender (.repay ⟨denom, ⟨stableDenom, a + b⟩⟩)
    once.result = .ok (.repay first) → both.result = .ok (.repay second) →
      whole.result = .ok (.repay
        ⟨⟨stableDenom, first.repayIn.amount + second.repayIn.amount⟩,
          ⟨stableDenom, first.repayInterest.amount + second.repayInterest.amount⟩⟩) ∧
      whole.engine.store = both.engine.store ∧ whole.engine.ledger = both.engine.ledger := by
  intro once both whole returned returnedAfter
  obtain ⟨_, ledger, planned, applied, answered, carried⟩ := transact_ok returned
  obtain ⟨_, ledger', planned', applied', answered', carried'⟩ := transact_ok returnedAfter
  obtain ⟨risk, settled, known, loaded, repayable, rfl⟩ := plan_repay_iff.mp planned
  obtain ⟨_, _, known', loaded', repayable', rfl⟩ := plan_repay_iff.mp planned'
  -- The second instalment starts from the records that the first one wrote.
  obtain ⟨named, pooled⟩ := settledPosition_named sound.keyed loaded
  have current : blocksBetween settled.position.settledAt e.height = 0 := by
    obtain ⟨_, -, accrued⟩ := settledPosition_ok loaded
    exact PositionRecords.settle_current accrued
  rw [carried] at known' loaded' applied'
  cases known.symm.trans known'
  cases loaded'.symm.trans (settledPosition_update (settled.repaid a) named pooled current)
  have planned'' := plan_repay_iff.mpr ⟨risk, settled, known, loaded, repayable.add repayable', rfl⟩
  obtain ⟨left, applied''⟩ := Ledger.instalments_pay sound.conserved applied applied' valid
    (planRepay_covered planned'')
  obtain ⟨returned'', carried''⟩ := transact_of_plan planned'' applied''
  refine ⟨?_, ?_, ?_⟩
  · cases answered
    cases answered'
    rw [returned'', repayPlan, PositionRecords.repayment_add]
    rfl
  · have left : both.engine.store = (e.store.update (.position (settled.repaid a))).update
        (.position ((settled.repaid a).repaid b)) := by
      rw [show both.engine = _ from carried', carried]
      rfl
    rw [carried'', left, e.store.update_repaid named pooled]
    rfl
  · rw [carried'', show both.engine = _ from carried']
    exact Ledger.instalments_eq sound.conserved applied applied' applied''

/-- After every run, repaying in two instalments in one block is neutral: a single repayment of both
amounts succeeds too, takes and settles as much, and ends with the same store and the same ledger,
every balance and every supply of it. -/
theorem run_repay_instalments (params : Params) (accounts : ModuleAccounts) (actions : List Action)
    (sender : Principal) (denom : Denom) (a b : Nat) (first second : RepayResponse) :
    let e := (fresh params accounts).run actions
    let once := e.transact sender (.repay ⟨denom, ⟨stableDenom, a⟩⟩)
    let both := once.engine.transact sender (.repay ⟨denom, ⟨stableDenom, b⟩⟩)
    let whole := e.transact sender (.repay ⟨denom, ⟨stableDenom, a + b⟩⟩)
    once.result = .ok (.repay first) → both.result = .ok (.repay second) →
      whole.result = .ok (.repay
        ⟨⟨stableDenom, first.repayIn.amount + second.repayIn.amount⟩,
          ⟨stableDenom, first.repayInterest.amount + second.repayInterest.amount⟩⟩) ∧
      whole.engine.store = both.engine.store ∧ whole.engine.ledger = both.engine.ledger := by
  have sound : ((fresh params accounts).run actions).Sound :=
    run_sound (fresh_sound params accounts) actions
  have valid : ((fresh params accounts).run actions).ledger.Valid :=
    run_keeps (·.ledger.Valid) (fun _ action _ valid => act_ledgerValid valid action)
      (fresh_sound params accounts) Ledger.empty_valid actions
  exact transact_repay_instalments sound valid

/-- Sixteen units of interest are due: the first instalment pays three of them, the second the rest
and some principal. -/
theorem run_repay_instalments_loanRun :
    let borrower : Principal := ⟨[1], by decide⟩
    let e := (fresh .initial .initial).run loanRun.dropLast
    let once := e.transact borrower (.repay ⟨"ether", ⟨stableDenom, 3⟩⟩)
    let both := once.engine.transact borrower (.repay ⟨"ether", ⟨stableDenom, 40⟩⟩)
    let whole := e.transact borrower (.repay ⟨"ether", ⟨stableDenom, 43⟩⟩)
    once.result = .ok (.repay ⟨⟨stableDenom, 3⟩, ⟨stableDenom, 3⟩⟩) ∧
      both.result = .ok (.repay ⟨⟨stableDenom, 40⟩, ⟨stableDenom, 13⟩⟩) ∧
      whole.result = .ok (.repay ⟨⟨stableDenom, 43⟩, ⟨stableDenom, 16⟩⟩) ∧
      whole.engine.store = both.engine.store ∧ whole.engine.ledger = both.engine.ledger := by
  intro borrower e once both whole
  have returned : once.result = .ok (.repay ⟨⟨stableDenom, 3⟩, ⟨stableDenom, 3⟩⟩) := by
    decide +kernel
  have returnedAfter : both.result = .ok (.repay ⟨⟨stableDenom, 40⟩, ⟨stableDenom, 13⟩⟩) := by
    decide +kernel
  exact ⟨returned, returnedAfter, run_repay_instalments .initial .initial loanRun.dropLast borrower
    "ether" 3 40 _ _ returned returnedAfter⟩

end Engine

end Stablecoin
