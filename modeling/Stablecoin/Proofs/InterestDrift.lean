import Mathlib.Data.Rat.Floor
import Stablecoin.Proofs.Fees
import Stablecoin.Proofs.RecordChange

/-!
# How far interest drifts

A settlement charges exact interest rounded to nearest, as if no decimal had been rounded before it:
the principal, the rate and the blocks multiply without loss, and the quotient is too close to the
exact one to reach or miss a half on its own. Settling at many heights in any order charges every
block once, so what is charged in total drifts from exact interest by half a unit for each
settlement that advanced.
-/
namespace Stablecoin

/-! ### One settlement -/

section Interest

variable {principal : Coin} {rate : Decimal} {period interest : Nat} {blocksPerYear : Height}

/-- A number close to a fraction lies on the same side of every half. -/
theorem half_of_near {x : ℚ} {n unit : Nat} (positive : 0 < unit)
    (near : |x - n / unit| < 1 / (2 * unit)) (m : Int) :
    ((m : ℚ) / 2 ≤ x → (m : ℚ) / 2 ≤ n / unit) ∧ (x ≤ m / 2 → (n : ℚ) / unit ≤ m / 2) := by
  have unit_pos : (0 : ℚ) < unit := by exact_mod_cast positive
  rw [abs_lt] at near
  -- In halves of the unit both sides are integers, so they are a unit apart if they differ.
  have scaled : (n : ℚ) / unit = 2 * n * (1 / (2 * unit)) := by field_simp
  have scaled' : (m : ℚ) / 2 = m * unit * (1 / (2 * unit)) := by field_simp
  have step : (0 : ℚ) < 1 / (2 * unit) := by positivity
  constructor
  · intro reached
    by_contra! missed
    rw [scaled, scaled', mul_lt_mul_iff_left₀ step] at missed
    have whole : 2 * (n : Int) + 1 ≤ m * unit := Int.add_one_le_of_lt (by exact_mod_cast missed)
    have apart : (2 * n + 1 : ℚ) ≤ m * unit := by exact_mod_cast whole
    have wide := mul_le_mul_of_nonneg_right apart step.le
    rw [← scaled', add_mul, ← scaled, one_mul] at wide
    linarith
  · intro missed
    by_contra! reached
    rw [scaled, scaled', mul_lt_mul_iff_left₀ step] at reached
    have whole : m * (unit : Int) + 1 ≤ 2 * n := Int.add_one_le_of_lt (by exact_mod_cast reached)
    have apart : (m * unit + 1 : ℚ) ≤ 2 * n := by exact_mod_cast whole
    have wide := mul_le_mul_of_nonneg_right apart step.le
    rw [← scaled, add_mul, ← scaled', one_mul] at wide
    linarith

/-- The interest charged is exact interest rounded to nearest, a half going up. -/
theorem accruedInterest_eq_floor {part : Nat} (whole : rate.IsMillionths part)
    (some : 0 < period) (blocks : blocksPerYear ≠ 0) (small : principal.amount * part * period < 10 ^ 27)
    (charged : accruedInterest principal rate period blocksPerYear = .ok interest) :
    interest
      = ⌊principal.amount * rate.toRat * period / (blocksPerYear.toNat : ℚ) + 1 / 2⌋₊ := by
  simp only [accruedInterest, bind_ok] at charged
  obtain ⟨amount, counted, yearly, multiplied, elapsed, counted', accrued, multiplied', perYear,
    counted'', quotient, divided, rounded⟩ := charged
  rw [Decimal.IsMillionths, Int.cast_natCast] at whole
  -- Neither product has more than six digits behind the point, so both are exact.
  have yearly_exact : yearly.toRat = (principal.amount * part : Nat) / 10 ^ 6 := by
    refine (Decimal.mul?_faithful (orOverflow_ok.mp multiplied)).eq_of_digits ?_ (by decide) ?_
    · have fewer := Nat.le_mul_of_pos_right (principal.amount * part) some
      simp only [Decimal.coefficientBound]
      omega
    · rw [Decimal.ofAmount_toRat counted, whole]
      push_cast
      ring
  have accrued_exact : accrued.toRat = (principal.amount * part * period : Nat) / 10 ^ 6 := by
    refine (Decimal.mul?_faithful (orOverflow_ok.mp multiplied')).eq_of_digits ?_ (by decide) ?_
    · simp only [Decimal.coefficientBound]
      omega
    · rw [yearly_exact, Decimal.ofAmount_toRat counted']
      push_cast
      ring
  generalize total : principal.amount * part * period = n at small accrued_exact
  have year_pos : 0 < blocksPerYear.toNat :=
    Nat.pos_of_ne_zero fun zero => blocks (UInt64.toNat_inj.mp zero)
  have year_lt := blocksPerYear.toNat_lt
  generalize unit_eq : 1000000 * blocksPerYear.toNat = unit
  have unit_pos : 0 < unit := by omega
  have unit_posRat : (0 : ℚ) < unit := by exact_mod_cast unit_pos
  have exact' : principal.amount * rate.toRat * period / (blocksPerYear.toNat : ℚ) = n / unit := by
    rw [← total, ← unit_eq, whole]
    push_cast
    field_simp
    norm_num
  have value : accrued.toRat / perYear.toRat = n / unit := by
    rw [← unit_eq, accrued_exact, Decimal.ofAmount_toRat counted'', div_div]
    push_cast
    norm_num
  have near := Decimal.div_near divided
  have faithful := Decimal.div?_faithful (orOverflow_ok.mp divided)
  have nonneg : 0 ≤ quotient.toRat := by
    refine Decimal.div_nonneg divided ?_ ?_
    · rw [accrued_exact]
      positivity
    · rw [Decimal.ofAmount_toRat counted'']
      positivity
  rw [value] at near faithful
  -- The error of the quotient is less than the distance between two halves of the unit.
  have close : |quotient.toRat - n / unit| < 1 / (2 * unit) := by
    have room : (2 * unit + 2 * n : ℚ) < 10 ^ 28 := by
      have cast : 2 * unit + 2 * n < 10 ^ 28 := by omega
      exact_mod_cast cast
    refine lt_of_le_of_lt near ?_
    rw [abs_of_nonneg (by positivity), div_lt_div_iff₀ (by positivity) (by positivity)]
    have scaled : (1 + (n : ℚ) / unit) * (2 * unit) = 2 * unit + 2 * n := by field_simp
    rwa [scaled, one_mul]
  obtain ⟨above, below⟩ := Decimal.charge_bounds nonneg rounded
  have least := (half_of_near unit_pos close (2 * interest - 1)).1
  have most := (half_of_near unit_pos close (2 * interest + 1)).2
  push_cast at least most
  replace least := least (by linarith)
  replace most := most (by linarith)
  -- A half itself is a decimal, and would not have been rounded down.
  have apart : (n : ℚ) / unit ≠ (2 * interest + 1) / 2 := by
    intro half
    have few : 10 * interest + 5 < Decimal.coefficientBound := by
      have below : (n : ℚ) / unit ≤ n := div_le_self (by positivity) (by exact_mod_cast unit_pos)
      have cast : (interest : ℚ) ≤ n := by linarith
      have within : interest ≤ n := by exact_mod_cast cast
      simp only [Decimal.coefficientBound]
      omega
    have same := faithful.eq_of_digits few (show 1 ≤ Decimal.maxScale by decide)
      (by rw [half]; push_cast; ring)
    push_cast at same
    linarith
  rw [exact', eq_comm, Nat.floor_eq_iff (by positivity)]
  constructor
  · linarith
  · linarith [lt_of_le_of_ne most apart]

end Interest

namespace PositionRecords

/-- Debt that bears interest. -/
def principal (r : PositionRecords) : Nat :=
  r.position.stableDebt.amount - r.position.interest.amount

theorem Changed.principal {r after : PositionRecords} {interest : Nat}
    (changed : r.Changed { debt := interest, interest := interest } after) :
    after.principal = r.principal := by
  have debt := changed.debt
  have accrued := changed.interest
  unfold PositionRecords.principal
  dsimp only at debt accrued
  omega

variable {r after : PositionRecords} {rate : Decimal} {blocksPerYear : Height}

/-- A settlement either finds that no block has passed, or charges interest for the blocks since the
last one. -/
theorem settle_cases {height : Height} (returned : r.settle rate height blocksPerYear = .ok after) :
    (height ≤ r.position.settledAt ∧ after = r) ∨
      (r.position.settledAt < height ∧ blocksPerYear ≠ 0 ∧ after.position.settledAt = height ∧
        ∃ principal interest, principal.amount = r.principal ∧
          accruedInterest principal rate (blocksBetween r.position.settledAt height) blocksPerYear
            = .ok interest ∧
          r.Changed { debt := interest, interest := interest } after) := by
  unfold settle at returned
  dsimp only at returned
  split at returned
  next none =>
    refine .inl ⟨UInt64.le_iff_toNat_le.mpr (Nat.sub_eq_zero_iff_le.mp none), ?_⟩
    exact (pure_ok.mp returned).symm
  next passed =>
    refine .inr ⟨UInt64.lt_iff_toNat_lt.mpr (Nat.sub_ne_zero_iff_lt.mp passed), ?_⟩
    simp only [bind_ok, require_ok, Position.principal, Coin.sub_ok, Coin.add_ok, pure_ok]
      at returned
    obtain ⟨_, blocks, _, ⟨covered, rfl⟩, interest, charged, _, ⟨_, rfl⟩, _, ⟨_, rfl⟩, _, ⟨_, rfl⟩,
      _, ⟨_, rfl⟩, rfl⟩ := returned
    refine ⟨blocks, rfl, _, interest, rfl, charged, ?_⟩
    constructor <;> simp

/-- A settlement charges every block since the last one once, to half a unit. -/
theorem settle_drift {height : Height} {part : Nat} (whole : rate.IsMillionths part)
    (later : r.position.settledAt < height)
    (inRange : r.principal * part * blocksBetween r.position.settledAt height < 10 ^ 27)
    (returned : r.settle rate height blocksPerYear = .ok after) :
    after.position.settledAt = height ∧ ∃ interest : Nat,
      r.Changed { debt := interest, interest := interest } after ∧
      |(interest : ℚ) - r.principal * rate.toRat * blocksBetween r.position.settledAt height
        / blocksPerYear.toNat| ≤ 1 / 2 := by
  rcases settle_cases returned with ⟨early, -⟩ | ⟨-, blocks, settled, coin, interest, same, charged,
    changed⟩
  · exact absurd later (UInt64.not_lt.mpr early)
  · refine ⟨settled, interest, changed, ?_⟩
    have passed : 0 < blocksBetween r.position.settledAt height :=
      Nat.sub_pos_of_lt (UInt64.lt_iff_toNat_lt.mp later)
    rw [← same] at inRange ⊢
    have rounded := accruedInterest_eq_floor whole passed blocks inRange charged
    have nonneg : 0 ≤ rate.toRat := by
      rw [whole, Int.cast_natCast]
      positivity
    rw [eq_comm, Nat.floor_eq_iff (by positivity)] at rounded
    rw [abs_le]
    constructor <;> linarith

/-! ### Settling again and again -/

/-- The records after a settlement at each height in turn. -/
def settleEach (r : PositionRecords) (rate : Decimal) (blocksPerYear : Height)
    (heights : List Height) : Result PositionRecords :=
  heights.foldlM (fun r height => r.settle rate height blocksPerYear) r

/-- The highest of these heights. -/
def latest (start : Height) (heights : List Height) : Height := heights.foldl max start

/-- How many of the heights come after all that came before them. -/
def advances (start : Height) : List Height → Nat
  | [] => 0
  | height :: rest => if start < height then advances height rest + 1 else advances start rest

theorem latest_cons_of_le {start height : Height} (early : height ≤ start) (rest : List Height) :
    latest start (height :: rest) = latest start rest := by
  have same : max start height = start := by
    rw [← UInt64.toNat_inj, UInt64.toNat_max]
    exact max_eq_left (UInt64.le_iff_toNat_le.mp early)
  rw [latest, List.foldl_cons, same, latest]

theorem latest_cons_of_lt {start height : Height} (later : start < height) (rest : List Height) :
    latest start (height :: rest) = latest height rest := by
  have same : max start height = height := by
    rw [← UInt64.toNat_inj, UInt64.toNat_max]
    exact max_eq_right (UInt64.lt_iff_toNat_lt.mp later).le
  rw [latest, List.foldl_cons, same, latest]

theorem le_latest (start : Height) (heights : List Height) :
    start.toNat ≤ (latest start heights).toNat := by
  induction heights generalizing start with
  | nil => exact le_rfl
  | cons height rest ih =>
    rcases UInt64.lt_or_le start height with later | early
    · rw [latest_cons_of_lt later]
      exact (UInt64.lt_iff_toNat_lt.mp later).le.trans (ih height)
    · rw [latest_cons_of_le early]
      exact ih start

/-- Blocks up to a height and from there on are all blocks. -/
private theorem blocksBetween_add {start middle last : Height} (later : start.toNat ≤ middle.toNat)
    (latest : middle.toNat ≤ last.toNat) :
    blocksBetween start middle + blocksBetween middle last = blocksBetween start last := by
  unfold blocksBetween
  omega

/-- The records after settling at heights whose highest is `last`, `count` of which advanced. -/
structure Drifted (r : PositionRecords) (rate : Decimal) (blocksPerYear last : Height) (count : Nat)
    (after : PositionRecords) : Prop where
  settledAt : after.position.settledAt = last
  principal : after.principal = r.principal
  charged : ∃ interest : Nat, r.Changed { debt := interest, interest := interest } after ∧
    |(interest : ℚ) - r.principal * rate.toRat * blocksBetween r.position.settledAt last
      / blocksPerYear.toNat| ≤ count / 2

/-- A settlement that advances adds the blocks up to its height and half a unit. -/
theorem Drifted.advance {middle : PositionRecords} {last : Height} {count interest : Nat}
    (changed : r.Changed { debt := interest, interest := interest } middle)
    (near : |(interest : ℚ) - r.principal * rate.toRat
        * blocksBetween r.position.settledAt middle.position.settledAt / blocksPerYear.toNat|
      ≤ 1 / 2)
    (later : r.position.settledAt.toNat ≤ middle.position.settledAt.toNat)
    (rest : middle.position.settledAt.toNat ≤ last.toNat)
    (drifted : middle.Drifted rate blocksPerYear last count after) :
    r.Drifted rate blocksPerYear last (count + 1) after := by
  obtain ⟨settledAt, principal, interest', changed', near'⟩ := drifted
  have same := changed.principal
  refine ⟨settledAt, principal.trans same, interest + interest', ?_, ?_⟩
  · simpa using changed.trans changed'
  · have blocks : (blocksBetween r.position.settledAt last : ℚ)
        = blocksBetween r.position.settledAt middle.position.settledAt
          + blocksBetween middle.position.settledAt last := by
      rw [← blocksBetween_add later rest, Nat.cast_add]
    rw [same] at near'
    rw [blocks, mul_add, add_div]
    rw [abs_le] at near near' ⊢
    push_cast
    constructor <;> linarith

/-- By induction on the heights: each either changes nothing or advances. -/
private theorem settleEach_drifted {heights : List Height} {part : Nat}
    (whole : rate.IsMillionths part)
    (inRange : r.principal * part
      * blocksBetween r.position.settledAt (latest r.position.settledAt heights) < 10 ^ 27)
    (returned : r.settleEach rate blocksPerYear heights = .ok after) :
    r.Drifted rate blocksPerYear (latest r.position.settledAt heights)
      (advances r.position.settledAt heights) after := by
  induction heights generalizing r with
  | nil =>
    cases pure_ok.mp returned
    refine ⟨rfl, rfl, 0, by constructor <;> simp, ?_⟩
    simp [latest, advances, blocksBetween]
  | cons height rest ih =>
    simp only [settleEach, List.foldlM_cons, bind_ok] at returned
    obtain ⟨middle, settled, returned⟩ := returned
    rcases UInt64.lt_or_le r.position.settledAt height with later | early
    · rw [latest_cons_of_lt later] at inRange ⊢
      have beyond := le_latest height rest
      have later' := (UInt64.lt_iff_toNat_lt.mp later).le
      have blocks := blocksBetween_add later' beyond
      have first : r.principal * part * blocksBetween r.position.settledAt height < 10 ^ 27 :=
        (Nat.mul_le_mul_left _ (Nat.le.intro blocks)).trans_lt inRange
      obtain ⟨settledAt, interest, changed, near⟩ := settle_drift whole later first settled
      subst settledAt
      have second := (Nat.mul_le_mul_left (r.principal * part)
        ((Nat.le_add_left _ _).trans_eq blocks)).trans_lt inRange
      rw [← changed.principal] at second
      rw [advances, if_pos later]
      exact .advance changed near later' beyond (ih second returned)
    · obtain ⟨-, rfl⟩ | ⟨later, -⟩ := settle_cases settled
      · rw [latest_cons_of_le early] at inRange ⊢
        rw [advances, if_neg (UInt64.not_lt.mpr early)]
        exact ih inRange returned
      · exact absurd early (UInt64.not_le.mpr later)

/-- Settling at heights in any order ends at the highest of them, and charges every block before it
once, to half a unit for each settlement that advanced. The principal stays, and the debt of the
position, of its pool and of all pools grows by what is charged, as the interest does. -/
theorem settleEach_drift {heights : List Height} (nonneg : 0 ≤ rate.toRat) (digits : rate.SixDigits)
    (inRange : r.principal * rate.toRat * 10 ^ 6
      * blocksBetween r.position.settledAt (latest r.position.settledAt heights) < 10 ^ 27)
    (returned : r.settleEach rate blocksPerYear heights = .ok after) :
    r.Drifted rate blocksPerYear (latest r.position.settledAt heights)
      (advances r.position.settledAt heights) after := by
  have whole := digits.isMillionths nonneg
  refine settleEach_drifted whole ?_ returned
  rw [whole, Int.cast_natCast, mul_assoc (r.principal : ℚ), div_mul_cancel₀ _ (by positivity)]
    at inRange
  exact_mod_cast inRange

/-- Debt of one million at 10% a year, settled at heights that also go back: three of six
settlements charge 31688 in total. -/
theorem settleEach_drift_backwards :
    let owner : Principal := ⟨[1], by decide⟩
    let records (debt pool total interest : Nat) (settledAt : Height) : PositionRecords :=
      ⟨⟨⟨stableDenom, total⟩, ⟨nativeDenom, 0⟩⟩,
        ⟨⟨"ether", 1000⟩, ⟨stableDenom, pool⟩, ⟨nativeDenom, 0⟩⟩,
        ⟨owner, ⟨"ether", 1000⟩, ⟨stableDenom, debt⟩, ⟨nativeDenom, 0⟩, ⟨stableDenom, interest⟩,
          settledAt⟩⟩
    let r := records 1000003 3000000 5000000 3 10
    let after := records 1031691 3031688 5031688 31691 2000000
    let heights : List Height := [5, 40, 40, 7, 100000, 2000000]
    0 ≤ (percent 10).toRat ∧ (percent 10).SixDigits ∧
      r.principal * (percent 10).toRat * 10 ^ 6
        * blocksBetween r.position.settledAt (latest r.position.settledAt heights) < 10 ^ 27 ∧
      r.settleEach (percent 10) 6311520 heights = .ok after ∧
      r.Drifted (percent 10) 6311520 2000000 3 after := by
  intro owner records r after heights
  have nonneg : 0 ≤ (percent 10).toRat := by decide +kernel
  have digits : (percent 10).SixDigits := by decide
  have inRange : r.principal * (percent 10).toRat * 10 ^ 6
      * blocksBetween r.position.settledAt (latest r.position.settledAt heights) < 10 ^ 27 := by
    have rate : (percent 10).toRat = 1 / 10 := by decide +kernel
    have principal : r.principal = 1000000 := by decide
    have blocks : blocksBetween r.position.settledAt (latest r.position.settledAt heights)
        = 1999990 := by
      decide
    rw [rate, principal, blocks]
    norm_num
  have returned : r.settleEach (percent 10) 6311520 heights = .ok after := by decide +kernel
  exact ⟨nonneg, digits, inRange, returned, settleEach_drift nonneg digits inRange returned⟩

end PositionRecords

end Stablecoin
