import Stablecoin.Proofs.Conversions
import Stablecoin.Proofs.SwapSurplus

/-!
# The legs of a mix

Each leg of a fractional mix converts its share of a value at the price of its coin. With shares and
prices in millionths every conversion rounds once, in the direction of the amount: units cost a leg
the least amount that covers their share, and an amount covers as many units as its share allows.
-/
namespace Stablecoin

/-- A leg takes so many millionths of a value, and its coin costs so many millionths. -/
structure Leg (share price : Decimal) (part unit : Nat) : Prop where
  share : share.IsMillionths part
  part_pos : 0 < part
  part_le : part ≤ 1000000
  price : price.IsMillionths unit
  unit_pos : 0 < unit
  unit_lt : unit < 1000000000

namespace Leg

variable {share price : Decimal} {part unit : Nat} (leg : Leg share price part unit)
include leg

theorem share_pos : 0 < share.toRat := leg.share.pos leg.part_pos

theorem share_le_one : share.toRat ≤ 1 := by
  have cast : (part : ℚ) ≤ 1000000 := by exact_mod_cast leg.part_le
  rw [leg.share, Int.cast_natCast]
  linarith

theorem price_pos : 0 < price.toRat := leg.price.pos leg.unit_pos

/-- A leg's share of a number of units in millionths. -/
theorem mul_le {n : Nat} (small : n ≤ 10 ^ 21) : n * part ≤ 10 ^ 27 :=
  (Nat.mul_le_mul small leg.part_le).trans_eq (by norm_num)

/-- The share of whole units is exact. -/
theorem mul {value : Decimal} {n : Nat} (whole : value.toRat = n) (small : n ≤ 10 ^ 21) :
    ∃ product, value.mul share = .ok product ∧ product.IsMillionths (n * part : Nat) := by
  have size := leg.mul_le small
  have exact' : value.toRat * share.toRat = ((n * part : Nat) : Int) / 10 ^ 6 := by
    rw [whole, leg.share]
    push_cast
    ring
  exact Decimal.mul_millionths exact'
    (by simp only [Int.natAbs_natCast, Decimal.coefficientBound]; omega)

/-- So many units cost a leg the least amount that covers their share. -/
theorem payIn {value : Decimal} {n : Nat} (whole : value.toRat = n) (small : n ≤ 10 ^ 21) :
    ∃ product amount, value.mul share = .ok product ∧ product.payInAt price = .ok amount ∧
      ∀ m, amount ≤ m ↔ n * part ≤ m * unit := by
  have size := leg.mul_le small
  have unit_lt := leg.unit_lt
  obtain ⟨product, multiplied, counted⟩ := leg.mul whole small
  obtain ⟨amount, paid, least⟩ :=
    Decimal.payInAt_millionths leg.price leg.unit_pos (by omega) counted
  exact ⟨product, amount, multiplied, paid, least⟩

/-- So many units pay a leg the largest amount that their share covers. -/
theorem payOut {value : Decimal} {n : Nat} (whole : value.toRat = n) (small : n ≤ 10 ^ 21) :
    ∃ product amount, value.mul share = .ok product ∧ product.payOutAt price = .ok amount ∧
      ∀ m, m ≤ amount ↔ m * unit ≤ n * part := by
  have size := leg.mul_le small
  have unit_lt := leg.unit_lt
  obtain ⟨product, multiplied, counted⟩ := leg.mul whole small
  obtain ⟨amount, paid, most⟩ :=
    Decimal.payOutAt_millionths leg.price leg.unit_pos (by omega) counted
  exact ⟨product, amount, multiplied, paid, most⟩

/-- A cap allows the units whose share it covers, and no more. -/
theorem limit {cap : Coin} (small : cap.amount * unit ≤ 10 ^ 21) :
    ∃ capValue limit, cap.worth price = .ok capValue ∧ capValue.div share = .ok limit ∧
      0 ≤ limit.toRat ∧ limit.toRat ≤ 10 ^ 21 ∧
      (∀ n : Nat, (n : ℚ) ≤ limit.toRat ↔ n * part ≤ cap.amount * unit) ∧
      ∀ n : Nat, limit.toRat ≤ n ↔ cap.amount * unit ≤ n * part := by
  have part_le := leg.part_le
  have inRange : cap.amount * unit < Decimal.coefficientBound := by
    simp only [Decimal.coefficientBound]
    omega
  obtain ⟨capValue, valued, counted⟩ := Coin.worth_millionths leg.price leg.unit_pos inRange
  obtain ⟨limit, divided, nonneg, below, above⟩ :=
    Decimal.div_millionths leg.share leg.part_pos (by omega) counted
  refine ⟨capValue, limit, valued, divided, nonneg, ?_, below, above⟩
  have bound := (above (10 ^ 21)).mpr (small.trans (Nat.le_mul_of_pos_right _ leg.part_pos))
  exact_mod_cast bound

/-- The share of units that a value contains is contained in the share of the value, and the share
of units that cover a value covers the share of the value, however the share is rounded. -/
theorem mul_bounds {value product : Decimal} {n : Nat} (small : n ≤ 10 ^ 21)
    (multiplied : value.mul share = .ok product) :
    ((n : ℚ) ≤ value.toRat → ((n * part : Nat) : ℚ) / 10 ^ 6 ≤ product.toRat) ∧
      (value.toRat ≤ n → product.toRat ≤ ((n * part : Nat) : ℚ) / 10 ^ 6) := by
  have size := leg.mul_le small
  have counted : ((n * part : Nat) : Int).natAbs < Decimal.coefficientBound := by
    simp only [Int.natAbs_natCast, Decimal.coefficientBound]
    omega
  -- The share of the units is in millionths, so rounding the product does not pass it.
  have faithful := Decimal.mul?_faithful (orOverflow_ok.mp multiplied)
  have least := faithful.ge (.ofMillionths _ counted)
  have most := faithful.le (.ofMillionths _ counted)
  rw [Decimal.ofMillionths_toRat, Int.cast_natCast] at least most
  have exact' : (n : ℚ) * share.toRat = ((n * part : Nat) : ℚ) / 10 ^ 6 := by
    rw [leg.share]
    push_cast
    ring
  rw [← exact'] at least most ⊢
  exact ⟨fun contained => least (mul_le_mul_of_nonneg_right contained leg.share_pos.le),
    fun covered => most (mul_le_mul_of_nonneg_right covered leg.share_pos.le)⟩

/-- What a leg takes for a value covers all units that the value contains. -/
theorem takes {value : Decimal} (nonneg : 0 ≤ value.toRat) (small : value.toRat ≤ 10 ^ 21) :
    ∃ product amount, value.mul share = .ok product ∧ product.payInAt price = .ok amount ∧
      ∀ n : Nat, (n : ℚ) ≤ value.toRat → n * part ≤ amount * unit := by
  have unit_lt := leg.unit_lt
  obtain ⟨product, multiplied, atMost⟩ :=
    Decimal.mul?_share nonneg leg.share_pos.le leg.share_le_one
  have product_nonneg := Decimal.mul?_nonneg multiplied nonneg leg.share_pos.le
  have within : product.toRat ≤ Decimal.largest.toRat * price.toRat := by
    have one : (1 : ℚ) ≤ unit := by exact_mod_cast leg.unit_pos
    rw [Decimal.largest_toRat, leg.price, Int.cast_natCast]
    linarith
  obtain ⟨quotient, divided⟩ := Decimal.div_of_le product_nonneg leg.price_pos within
  obtain ⟨amount, rounded⟩ :=
    Decimal.payIn_of_nonneg (Decimal.div_nonneg divided product_nonneg leg.price_pos.le)
  have paid : product.payInAt price = .ok amount := bind_ok.mpr ⟨quotient, divided, rounded⟩
  refine ⟨product, amount, orOverflow_ok.mpr multiplied, paid, fun n contained => ?_⟩
  have few : n ≤ 10 ^ 21 := by exact_mod_cast contained.trans small
  have size := leg.mul_le few
  exact Decimal.le_payInAt_mul leg.price leg.unit_pos (by omega) product_nonneg
    ((leg.mul_bounds few (orOverflow_ok.mpr multiplied)).1 contained) paid

/-- What a leg is paid for a value is covered by the units that cover the value. -/
theorem paid_mul_le {value product : Decimal} {n amount : Nat} (nonneg : 0 ≤ value.toRat)
    (covered : value.toRat ≤ n) (small : n ≤ 10 ^ 21) (multiplied : value.mul share = .ok product)
    (paid : product.payOutAt price = .ok amount) : amount * unit ≤ n * part := by
  have size := leg.mul_le small
  have unit_lt := leg.unit_lt
  have product_nonneg := Decimal.mul_nonneg multiplied nonneg leg.share_pos.le
  exact Decimal.payOutAt_mul_le leg.price leg.unit_pos (by omega) product_nonneg
    ((leg.mul_bounds small multiplied).2 covered) paid

end Leg

namespace Engine

variable {e : Engine}

/-- Backing's share of newly minted value in millionths. -/
def backingShare (e : Engine) : Nat := e.ratioMillionths.toNat

section Fractional

variable (digits : e.store.params.backingRatio.SixDigits)
  (above : 0 < e.store.params.backingRatio.toRat) (below : e.store.params.backingRatio.toRat < 1)
include digits above below

theorem backingShare_spec : e.store.params.backingRatio.IsMillionths e.backingShare ∧
    0 < e.backingShare ∧ e.backingShare < 1000000 := by
  have whole : e.store.params.backingRatio.IsMillionths e.ratioMillionths := digits
  rw [whole, div_pos_iff_of_pos_right (by positivity)] at above
  rw [whole, div_lt_one (by positivity)] at below
  have low : 0 < e.ratioMillionths := by exact_mod_cast above
  have high : e.ratioMillionths < 1000000 := by
    have cast : (e.ratioMillionths : ℚ) < (1000000 : Int) := below.trans_eq (by norm_num)
    exact_mod_cast cast
  have same : (e.backingShare : Int) = e.ratioMillionths := Int.toNat_of_nonneg low.le
  exact ⟨same ▸ whole, by omega, by omega⟩

/-- The legs of a fractional mix at ordinary prices. -/
theorem fractionalLegs {denom : Denom} (priced : e.Priced denom)
    (nativePriced : e.Priced nativeDenom) :
    ∃ rest backingPrice nativePrice, e.price denom = .ok backingPrice ∧
      e.price nativeDenom = .ok nativePrice ∧
      Decimal.subTrusted 1 e.store.params.backingRatio = .ok rest ∧
      Leg e.store.params.backingRatio backingPrice e.backingShare (e.priceMillionths denom) ∧
      Leg rest nativePrice (1000000 - e.backingShare) (e.priceMillionths nativeDenom) := by
  obtain ⟨whole, positive, part_lt⟩ := backingShare_spec digits above below
  obtain ⟨backingPrice, known, -, counted, unit_pos, unit_lt⟩ := priced.price
  obtain ⟨nativePrice, known', -, counted', unit_pos', unit_lt'⟩ := nativePriced.price
  obtain ⟨rest, left, -⟩ := Decimal.sub?_of_le above.le (below.le.trans_eq Decimal.toRat_one.symm)
  have exact' := Decimal.one_sub?_toRat above.le below.le left
  have restIs : rest.IsMillionths (1000000 - e.backingShare : Nat) := by
    have cast : ((1000000 - e.backingShare : Nat) : ℚ) = 1000000 - e.backingShare := by
      rw [Nat.cast_sub part_lt.le]
      norm_num
    rw [Decimal.IsMillionths, exact', whole, Int.cast_natCast, Int.cast_natCast, cast]
    ring
  exact ⟨rest, backingPrice, nativePrice, known, known', Decimal.subTrusted_ok.mpr left,
    ⟨whole, positive, part_lt.le, counted, unit_pos, unit_lt⟩,
    ⟨restIs, by omega, by omega, counted', unit_pos', unit_lt'⟩⟩

end Fractional

end Engine

end Stablecoin
