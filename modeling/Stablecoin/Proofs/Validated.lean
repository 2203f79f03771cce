import Stablecoin.Proofs.Graceful
import Stablecoin.Proofs.Healthy

/-!
# What validation guarantees

The rates that validated parameters hold, and the lookups and checks of an engine whose parameters
have all passed validation.
-/
namespace Stablecoin

/-- A rate in `[0, 1)`, if there is one. -/
def IsFraction (rate : Option Decimal) : Prop := ∀ r ∈ rate, 0 ≤ r.toRat ∧ r.toRat < 1

namespace IsFraction

variable {rate : Option Decimal}

theorem nonneg (fraction : IsFraction rate) : ∀ r ∈ rate, 0 ≤ r.toRat :=
  fun r given => (fraction r given).1

theorem le_one (fraction : IsFraction rate) : ∀ r ∈ rate, r.toRat ≤ 1 :=
  fun r given => (fraction r given).2.le

/-- No rate counts as zero. -/
theorem getD (fraction : IsFraction rate) : 0 ≤ (rate.getD 0).toRat ∧ (rate.getD 0).toRat < 1 := by
  cases rate with
  | none => exact ⟨Decimal.toRat_zero.ge, Decimal.toRat_zero.trans_lt one_pos⟩
  | some rate => exact fraction rate rfl

end IsFraction

theorem requireNonNegative_ok {name : String} {rate : Decimal} {result : Unit} :
    requireNonNegative name rate = .ok result ↔ 0 ≤ rate.toRat := by
  rw [requireNonNegative, require_ok, Decimal.le_iff_toRat, Decimal.toRat_zero]

theorem requireFraction_ok {name : String} {rate : Decimal} {result : Unit} :
    requireFraction name rate = .ok result ↔ 0 ≤ rate.toRat ∧ rate.toRat < 1 := by
  simp [requireFraction, requireNonNegative_ok, Decimal.lt_iff_toRat]

theorem requireOptionalFraction_ok {name : String} {rate : Option Decimal} {result : Unit} :
    requireOptionalFraction name rate = .ok result ↔ IsFraction rate := by
  cases rate <;> simp [requireOptionalFraction, requireFraction_ok, IsFraction]

/-! ### Rates -/

structure Params.RatesValid (p : Params) : Prop where
  backingRatio : 0 ≤ p.backingRatio.toRat
  mintPriceBias : 0 ≤ p.mintPriceBias.toRat ∧ p.mintPriceBias.toRat < 1
  burnPriceBias : 0 ≤ p.burnPriceBias.toRat ∧ p.burnPriceBias.toRat < 1
  rebackBonus : 0 ≤ p.rebackBonus.toRat
  liquidationCommission : 0 ≤ p.liquidationCommission.toRat ∧ p.liquidationCommission.toRat < 1
  blocksPerYear : p.blocksPerYear ≠ 0

theorem Params.validate_rates {p : Params} (valid : p.validate = .ok ()) : p.RatesValid := by
  simp only [validate, bind_ok, requireNonNegative_ok, requireFraction_ok, require_ok] at valid
  obtain ⟨_, ratio, _, mint, _, burn, _, bonus, _, commission, blocks⟩ := valid
  exact ⟨ratio, mint, burn, bonus, commission, blocks⟩

structure BackingParams.RatesValid (p : BackingParams) : Prop where
  mintFee : IsFraction p.mintFee
  burnFee : IsFraction p.burnFee
  buybackFee : IsFraction p.buybackFee
  rebackFee : IsFraction p.rebackFee

theorem BackingParams.validate_rates {p : BackingParams} (valid : p.validate = .ok ()) :
    p.RatesValid := by
  simp only [validate, bind_ok, requireOptionalFraction_ok] at valid
  obtain ⟨_, -, _, mint, _, burn, _, buyback, reback⟩ := valid
  exact ⟨mint, burn, buyback, reback⟩

structure CollateralParams.RatesValid (p : CollateralParams) : Prop where
  liquidationFee : 0 ≤ p.liquidationFee.toRat ∧ p.liquidationFee.toRat < 1
  interestRate : 0 ≤ p.interestRate.toRat
  mintFee : IsFraction p.mintFee

theorem CollateralParams.validate_rates {p : CollateralParams} (valid : p.validate = .ok ()) :
    p.RatesValid := by
  simp only [validate, bind_ok, requireNonNegative_ok, requireFraction_ok,
    requireOptionalFraction_ok] at valid
  obtain ⟨_, -, _, liquidation, _, interest, _, -, _, mint, -⟩ := valid
  exact ⟨liquidation, interest, mint⟩

/-- All stored parameters have passed validation. -/
structure Store.Validated (s : Store) : Prop where
  params : s.params.validate = .ok ()
  backingParams : ∀ denom params,
    s.backingParams.get? denom = some params → params.validate = .ok ()
  collateralParams : ∀ denom params,
    s.collateralParams.get? denom = some params → params.validate = .ok ()

theorem Store.WellFormed.validated {s : Store} (wellFormed : s.WellFormed) : s.Validated :=
  ⟨wellFormed.params, wellFormed.backingParams, wellFormed.collateralParams⟩

variable {excused : Failure → Prop}

/-! ### Prices and fees -/

theorem pegTarget_pos : 0 < pegTarget.toRat := Decimal.toRat_one.symm ▸ one_pos

/-- What an amount is divided by to gross it up by a valid fee is positive. -/
theorem feeComplement_graceful (name : String) {rate : Option Decimal}
    (fraction : IsFraction rate) :
    Graceful excused (fun complement => 0 < complement.toRat) (feeComplement name rate) := by
  obtain ⟨nonneg, below⟩ := fraction.getD
  refine (require_of_holds (Decimal.lt_iff_toRat.mpr ?_)).bind fun _ _ => ?_
  · rwa [Decimal.toRat_one]
  · rw [← Decimal.toRat_one] at below
    exact (Decimal.subTrusted_graceful nonneg below.le).mono fun _ left =>
      Decimal.sub?_pos below left.1

namespace Engine

variable {e : Engine}

theorem quoted_graceful (denom : Denom) :
    Graceful excused (fun _ => True) (e.prices.quoted denom) := by
  unfold PriceTable.quoted
  split
  next => exact .pure trivial
  next => exact reject_graceful rfl

theorem price_graceful (denom : Denom) :
    Graceful excused (fun price => 0 < price.toRat) (e.price denom) := by
  refine (quoted_graceful denom).bind fun rate _ =>
    (require_graceful rfl).bind fun _ positive => .pure ?_
  rwa [Decimal.lt_iff_toRat, Decimal.toRat_zero] at positive

theorem requireMintPrice_graceful : Graceful excused (fun _ => True) e.requireMintPrice :=
  (quoted_graceful _).bind fun _ _ => (orOverflow_graceful _).bind fun _ _ =>
    (orOverflow_graceful _).bind fun _ _ => (require_graceful rfl).weaken

theorem requireBurnPrice_graceful (rates : e.store.params.RatesValid) :
    Graceful excused (fun _ => True) e.requireBurnPrice := by
  obtain ⟨nonneg, below⟩ := rates.burnPriceBias
  refine (quoted_graceful _).bind fun _ _ =>
    (Decimal.subTrusted_graceful nonneg ?_).bind fun _ _ =>
      (orOverflow_graceful _).bind fun _ _ => (require_graceful rfl).weaken
  rw [Decimal.toRat_one]
  exact below.le

/-! ### Lookups -/

theorem backingParams_graceful (validated : e.store.Validated) (denom : Denom) :
    Graceful excused BackingParams.RatesValid (e.backingParams denom) := by
  unfold backingParams
  split
  next => exact reject_graceful rfl
  next params found =>
    exact (require_graceful rfl).bind fun _ _ =>
      .pure (BackingParams.validate_rates (validated.backingParams denom params found))

theorem collateralParams_graceful (validated : e.store.Validated) (denom : Denom) :
    Graceful excused (fun params => params.validate = .ok ()) (e.collateralParams denom) := by
  unfold collateralParams
  split
  next => exact reject_graceful rfl
  next params found =>
    exact (require_graceful rfl).bind fun _ _ =>
      .pure (validated.collateralParams denom params found)

theorem backing_graceful (denom : Denom) :
    Graceful excused (fun r => e.backing denom = .ok r) (e.backing denom) := by
  have graceful : Graceful excused (fun _ => True) (e.backing denom) := by
    unfold backing
    split
    next => exact .pure trivial
    next => exact reject_graceful rfl
  exact graceful.returned.mono fun _ found => found.1

end Engine

end Stablecoin
