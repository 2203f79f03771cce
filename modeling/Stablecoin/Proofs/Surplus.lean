import Stablecoin.Proofs.Books
import Stablecoin.Proofs.Decimal.Exact
import Stablecoin.Proofs.Valuation

/-!
# The surplus in millionths

Where prices and the backing ratio have at most six digits behind the point, and amounts are far
from the range of decimals, the value of all backing and the backing required for it are whole
millionths and nothing is rounded before the end: the value is then truncated, and the requirement
rounded up.
-/
namespace Stablecoin

/-- A price that is positive, below a thousand, and has at most six digits behind the point. -/
structure Decimal.OrdinaryPrice (price : Decimal) : Prop where
  positive : 0 < price.toRat
  below : price.toRat < 1000
  digits : price.SixDigits

instance (price : Decimal) : Decidable price.OrdinaryPrice :=
  decidable_of_iff (0 < price.toRat ∧ price.toRat < 1000 ∧ price.SixDigits)
    ⟨fun ⟨positive, below, digits⟩ => ⟨positive, below, digits⟩,
      fun ⟨positive, below, digits⟩ => ⟨positive, below, digits⟩⟩

theorem Decimal.ofCounter_of_lt {n : Int} (small : n.natAbs < coefficientBound) :
    ofCounter n = .ok ⟨n, 0, small, by decide⟩ :=
  orOverflow_ok.mpr (ofParts?_eq_some.mpr ⟨rfl, rfl⟩)

/-- A coin's value at a price in millionths is in millionths. -/
theorem Coin.worth_millionths {c : Coin} {price : Decimal} {unit : Nat}
    (whole : price.IsMillionths unit) (positive : 0 < unit)
    (small : c.amount * unit < Decimal.coefficientBound) :
    ∃ value, c.worth price = .ok value ∧ value.IsMillionths (c.amount * unit : Nat) := by
  have amount : c.amount < Decimal.coefficientBound :=
    (Nat.le_mul_of_pos_right _ positive).trans_lt small
  have counted := Decimal.ofAmount_of_lt amount
  have product : (⟨c.amount, 0, amount, by decide⟩ : Decimal).toRat * price.toRat
      = ((c.amount * unit : Nat) : Int) / 10 ^ 6 := by
    rw [Decimal.ofAmount_toRat counted, whole]
    push_cast
    ring
  obtain ⟨value, multiplied, millionths⟩ := Decimal.mul_millionths product small
  exact ⟨value, bind_ok.mpr ⟨_, counted, multiplied⟩, millionths⟩

/-- Pools stand under the names that they carry. -/
def Store.PoolsNamed (s : Store) : Prop :=
  ∀ denom pool, s.backingPools.get? denom = some pool → pool.backing.denom = denom

theorem Store.Keyed.poolsNamed {s : Store} (keyed : s.Keyed) : s.PoolsNamed :=
  fun denom pool stored => (keyed.backingPool denom pool stored).1

namespace Engine

variable {e : Engine}

/-! ### Prices -/

/-- The reported price of a denomination in millionths, zero if there is none. -/
def priceMillionths (e : Engine) (denom : Denom) : Nat :=
  (e.prices.get? denom).elim 0 fun price => price.millionths.toNat

/-- A denomination has a price, and an ordinary one. -/
def Priced (e : Engine) (denom : Denom) : Prop :=
  ∃ price ∈ e.prices.get? denom, price.OrdinaryPrice

instance (e : Engine) (denom : Denom) : Decidable (e.Priced denom) :=
  inferInstanceAs (Decidable (∃ price ∈ e.prices.get? denom, price.OrdinaryPrice))

theorem Priced.price {denom : Denom} (priced : e.Priced denom) :
    ∃ price, e.price denom = .ok price ∧ price.OrdinaryPrice ∧
      price.IsMillionths (e.priceMillionths denom) ∧ 0 < e.priceMillionths denom ∧
      e.priceMillionths denom < 1000000000 := by
  obtain ⟨price, reported, ordinary⟩ := priced
  have digits := ordinary.digits
  have positive := ordinary.positive
  have below := ordinary.below
  have counted : e.priceMillionths denom = price.millionths.toNat := by
    rw [priceMillionths, Option.mem_def.mp reported, Option.elim_some]
  unfold Decimal.SixDigits Decimal.IsMillionths at digits
  have low : 0 < price.millionths := by
    rw [digits, div_pos_iff_of_pos_right (by positivity)] at positive
    exact_mod_cast positive
  have high : price.millionths < 1000000000 := by
    rw [digits, div_lt_iff₀ (by positivity)] at below
    have cast : (price.millionths : ℚ) < (1000000000 : Int) := below.trans_eq (by norm_num)
    exact_mod_cast cast
  refine ⟨price, price_of_reported reported ?_, ordinary, ?_, by omega, by omega⟩
  · exact Decimal.lt_iff_toRat.mpr (Decimal.toRat_zero.trans_lt positive)
  · rw [counted, Int.toNat_of_nonneg low.le]
    exact digits

/-! ### Value and requirement -/

/-- What a pool's backing is worth in millionths. -/
def poolMillionths (e : Engine) (_ : Denom) (pool : BackingPool) : Int :=
  (pool.backing.amount * e.priceMillionths pool.backing.denom : Nat)

theorem poolMillionths_nonneg (denom : Denom) (pool : BackingPool) :
    0 ≤ e.poolMillionths denom pool :=
  Int.natCast_nonneg _

theorem Priced.worth {pool : BackingPool} (priced : e.Priced pool.backing.denom) (denom : Denom)
    (small : e.poolMillionths denom pool < Decimal.coefficientBound) :
    ∃ price value, e.price pool.backing.denom = .ok price ∧ pool.backing.worth price = .ok value ∧
      value.IsMillionths (e.poolMillionths denom pool) := by
  obtain ⟨price, known, -, whole, positive, -⟩ := priced.price
  obtain ⟨value, valued, millionths⟩ := Coin.worth_millionths whole positive (Int.ofNat_lt.mp small)
  exact ⟨price, value, known, valued, millionths⟩

/-- What all backing is worth in millionths. -/
def backingMillionths (e : Engine) : Int := e.store.backingPools.sum e.poolMillionths

theorem backingMillionths_nonneg : 0 ≤ e.backingMillionths :=
  Table.sumEntries_nonneg poolMillionths_nonneg _

/-- Every backing asset has an ordinary price. -/
def AllPriced (e : Engine) : Prop :=
  ∀ pool ∈ e.store.backingPools.values, e.Priced pool.backing.denom

instance (e : Engine) : Decidable e.AllPriced :=
  inferInstanceAs (Decidable (∀ pool ∈ e.store.backingPools.values, e.Priced pool.backing.denom))

/-- Adding the values of pools one by one loses nothing while the total is in range. -/
theorem addPoolValues_millionths {entries : List (Denom × BackingPool)} {value : Decimal} {n : Int}
    (counted : value.IsMillionths n) (nonneg : 0 ≤ n)
    (priced : ∀ pool ∈ entries.map Prod.snd, e.Priced pool.backing.denom)
    (small : n + Table.sumEntries e.poolMillionths entries < Decimal.coefficientBound) :
    ∃ total, e.addPoolValues value (entries.map Prod.snd) = .ok total ∧
      total.IsMillionths (n + Table.sumEntries e.poolMillionths entries) := by
  -- Every partial sum is in range because no pool is worth less than nothing.
  induction entries generalizing value n with
  | nil => exact ⟨value, rfl, by rwa [Table.sumEntries, List.foldr_nil, add_zero]⟩
  | cons first rest ih =>
    rw [List.map_cons, List.forall_mem_cons] at priced
    rw [Table.sumEntries_cons] at small ⊢
    have head := e.poolMillionths_nonneg first.1 first.2
    have tail := Table.sumEntries_nonneg e.poolMillionths_nonneg rest
    obtain ⟨price, worth, known, valued, exact'⟩ := priced.1.worth first.1 (by omega)
    obtain ⟨sum, added, summed⟩ := counted.add exact' (by omega)
    obtain ⟨total, folded, totalled⟩ := ih summed (by omega) priced.2 (by omega)
    refine ⟨total, ?_, ?_⟩
    · rw [addPoolValues, List.map_cons, List.foldlM_cons]
      refine bind_ok.mpr ⟨sum, ?_, folded⟩
      exact bind_ok.mpr ⟨price, known, bind_ok.mpr ⟨worth, valued, added⟩⟩
    · rwa [← add_assoc]

theorem backingValue_eq (priced : e.AllPriced)
    (small : e.backingMillionths < Decimal.coefficientBound) :
    e.backingValue = .ok (e.backingMillionths / 1000000).toNat := by
  have nonneg := e.backingMillionths_nonneg
  have inRange : 0 + e.backingMillionths < Decimal.coefficientBound := by rwa [zero_add]
  obtain ⟨total, folded, exact'⟩ := addPoolValues_millionths
    Decimal.isMillionths_zero le_rfl priced inRange
  have paid := exact'.payOut (by rwa [zero_add])
  rw [zero_add] at paid
  exact bind_ok.mpr ⟨total, folded, paid⟩

/-- The backing ratio in millionths. -/
def ratioMillionths (e : Engine) : Int := e.store.params.backingRatio.millionths

theorem requiredBacking_eq {minted : Int} (digits : e.store.params.backingRatio.SixDigits)
    (counter : minted.natAbs < Decimal.coefficientBound)
    (small : (minted * e.ratioMillionths).natAbs < Decimal.coefficientBound) :
    e.requiredBacking minted = .ok (max (-(-(minted * e.ratioMillionths) / 1000000)) 0) := by
  have counted := Decimal.ofCounter_of_lt counter
  have value : (⟨minted, 0, counter, by decide⟩ : Decimal).toRat
      * e.store.params.backingRatio.toRat = (minted * e.ratioMillionths : Int) / 10 ^ 6 := by
    rw [digits, Decimal.toRat_eq, ratioMillionths]
    push_cast
    ring
  obtain ⟨required, multiplied, exact'⟩ := Decimal.mul_millionths value small
  simp only [requiredBacking, bind_ok, pure_ok]
  exact ⟨_, counted, required, multiplied, by rw [exact'.ceil]⟩

/-! ### The surplus -/

/-- The surplus for a value and a requirement in millionths: the value is truncated, the
requirement rounded up and never below zero. -/
def surplus (value required : Int) : Int := value / 1000000 - max (-(-required / 1000000)) 0

/-- Amounts and prices at which the surplus is exact up to its two directed roundings. -/
structure SurplusInRange (e : Engine) (minted : Int) : Prop where
  priced : e.AllPriced
  digits : e.store.params.backingRatio.SixDigits
  value : e.backingMillionths < Decimal.coefficientBound
  counter : minted.natAbs < Decimal.coefficientBound
  required : (minted * e.ratioMillionths).natAbs < Decimal.coefficientBound

theorem excessBacking_eq {total : BackingTotal} (recorded : e.store.backingTotal = some total)
    (inRange : e.SurplusInRange total.stableMinted.amount) :
    e.excessBacking
      = .ok (surplus e.backingMillionths (total.stableMinted.amount * e.ratioMillionths)) := by
  have nonneg := e.backingMillionths_nonneg
  have required := requiredBacking_eq inRange.digits inRange.counter inRange.required
  have held := backingValue_eq inRange.priced inRange.value
  simp only [excessBacking, recorded, bind_ok, pure_ok]
  refine ⟨_, required, _, held, ?_⟩
  rw [surplus, Int.toNat_of_nonneg (by omega)]

/-- A change by which backing gains at least what is required in addition costs no more of the
surplus than one unit of rounding, and a surplus may be used up. -/
theorem surplus_ge {value required value' required' : Int} (nonneg : 0 ≤ value')
    (covered : required' - required ≤ value' - value) :
    min (surplus value required) 0 - 1 ≤ surplus value' required' := by
  unfold surplus
  omega

end Engine

end Stablecoin
