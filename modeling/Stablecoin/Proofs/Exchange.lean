import Stablecoin.Proofs.Conversions
import Stablecoin.Proofs.Surplus

/-!
# Taken at one price and paid at another

The amount taken for a value at one price is rounded up, and what it pays at another truncated. So
it pays for the value up to one coin, and at prices in millionths for every whole number that the
value covers.
-/
namespace Stablecoin

namespace Decimal

section Exchange

variable {value price price' returned : Decimal} {taken : Coin} {paid : Nat}
  (nonneg : 0 ≤ value.toRat) (positive : 0 < price.toRat) (positive' : 0 < price'.toRat)
  (amount : value.payInAt price = .ok taken.amount) (worth : taken.worth price = .ok returned)
  (exchanged : returned.payOutAt price' = .ok paid)
include nonneg positive positive' amount worth exchanged

/-- Coins taken for a value pay for it, up to one coin of what they pay for. -/
theorem lt_exchanged : value.toRat < (paid + 1) * price'.toRat
    + (4 + 5 * (taken.amount * price.toRat) + 2 * price.toRat + price'.toRat) / 10 ^ 28 := by
  have covered := le_payInAt nonneg positive amount
  have near := Coin.worth_near worth
  have low := near.ge (by positivity)
  have high := near.le (by positivity)
  have bought := lt_payOutAt (Coin.worth_nonneg worth positive) positive' exchanged
  linarith

/-- Coins taken for a value pay for no more than it and one of them. -/
theorem exchanged_le : paid * price'.toRat ≤ value.toRat + price.toRat
    + (2 + 4 * value.toRat + 4 * price.toRat + price'.toRat) / 10 ^ 28 := by
  have covers := payInAt_le nonneg positive amount
  have near := (Coin.worth_near worth).le (by positivity)
  have bought := payOutAt_le (Coin.worth_nonneg worth positive) positive' exchanged
  linarith

end Exchange

end Decimal

namespace Engine

variable {e : Engine}

/-- At ordinary prices, coins taken for a value cover and pay for every whole number that the value
covers. -/
theorem le_exchanged {denom denom' : Denom} {value price price' returned : Decimal} {taken : Coin}
    {paid m : Nat} (ordinary : e.Priced denom) (ordinary' : e.Priced denom')
    (known : e.price denom = .ok price) (known' : e.price denom' = .ok price')
    (small : value.toRat ≤ 10 ^ 21) (covered : m * price'.toRat ≤ value.toRat)
    (worth : taken.worth price = .ok returned) (amount : value.payInAt price = .ok taken.amount)
    (exchanged : returned.payOutAt price' = .ok paid) :
    m * price'.toRat ≤ taken.amount * price.toRat ∧ m ≤ paid := by
  obtain ⟨_, same, -, whole, unit_pos, bounded⟩ := ordinary.price
  cases known.symm.trans same
  obtain ⟨_, same, -, whole', unit_pos', bounded'⟩ := ordinary'.price
  cases known'.symm.trans same
  have positive := whole.pos unit_pos
  have positive' := whole'.pos unit_pos'
  generalize e.priceMillionths denom = unit at whole unit_pos bounded
  generalize e.priceMillionths denom' = unit' at whole' unit_pos' bounded'
  have priceIs : price.toRat = unit / 10 ^ 6 := whole
  have price_lt : (unit : ℚ) < 1000000000 := by exact_mod_cast bounded
  have nonneg : 0 ≤ value.toRat := le_trans (by positivity) covered
  have least : ((m * unit' : Nat) : ℚ) / 10 ^ 6 ≤ value.toRat := by
    refine le_trans (le_of_eq ?_) covered
    rw [whole', Int.cast_natCast]
    push_cast
    ring
  -- In millionths both amounts are far below the range of decimals.
  have few : m * unit' ≤ 10 ^ 27 := by
    have cast : ((m * unit' : Nat) : ℚ) ≤ (10 ^ 27 : Nat) := by
      push_cast at least ⊢
      linarith
    exact_mod_cast cast
  have few' : taken.amount * unit ≤ 2 * 10 ^ 27 := by
    have near := Decimal.payInAt_le nonneg positive amount
    rw [priceIs] at near
    have cast : ((taken.amount * unit : Nat) : ℚ) ≤ (2 * 10 ^ 27 : Nat) := by
      push_cast
      linarith
    exact_mod_cast cast
  have taken_covers :=
    Decimal.le_payInAt_mul whole unit_pos (n := m * unit') (by omega) nonneg least amount
  have inRange : taken.amount * unit < Decimal.coefficientBound := few'.trans_lt (by decide)
  obtain ⟨_, same, counted⟩ := Coin.worth_millionths whole unit_pos inRange
  cases worth.symm.trans same
  obtain ⟨_, same, pays⟩ := Decimal.payOutAt_millionths whole' unit_pos' (by omega) counted
  cases exchanged.symm.trans same
  refine ⟨?_, (pays m).mpr taken_covers⟩
  have cast : (m * unit' : ℚ) ≤ taken.amount * unit := by exact_mod_cast taken_covers
  rw [whole, whole', Int.cast_natCast, Int.cast_natCast]
  linarith

/-- An engine where 100 ether were minted from at one price before the price moved. -/
def movedDesk (trader : Principal) (before after nativePrice : Decimal)
    (buybackFee rebackFee : Option Decimal) : Engine :=
  (fresh .initial .initial).run
    [.registerBacking
        { denom := "ether"
          enabled := true
          maxBacking := none
          maxStableMint := none
          mintFee := none
          burnFee := none
          buybackFee := buybackFee
          rebackFee := rebackFee },
      .setRate "ether" before, .setRate nativeDenom nativePrice,
      .setRate stableDenom (percent 105), .fund (.user trader) ⟨"ether", 100⟩,
      .transact trader (.mint ⟨none, ⟨stableDenom, 0⟩, ⟨"ether", 100⟩, ⟨nativeDenom, 0⟩, true⟩),
      .setRate "ether" after]

end Engine

end Stablecoin
