import Stablecoin.Engine.Basic
import Stablecoin.Proofs.Decimal.Share

/-!
# What coins are worth

Checked arithmetic, and the values of coins at prices, against exact rational values. A price in use
is a reported one and positive, and debt in stable units is valued at the number of units.
-/
namespace Stablecoin

namespace Decimal

theorem mul_near {a b product : Decimal} (multiplied : a.mul b = .ok product) :
    product.Near (a.toRat * b.toRat) :=
  mul?_near (orOverflow_ok.mp multiplied)

theorem mul_nonneg {a b product : Decimal} (multiplied : a.mul b = .ok product)
    (left : 0 ≤ a.toRat) (right : 0 ≤ b.toRat) : 0 ≤ product.toRat :=
  mul?_nonneg (orOverflow_ok.mp multiplied) left right

theorem div_near {a b quotient : Decimal} (divided : a.div b = .ok quotient) :
    quotient.Near (a.toRat / b.toRat) :=
  div?_near (orOverflow_ok.mp divided)

theorem div_nonneg {a b quotient : Decimal} (divided : a.div b = .ok quotient)
    (left : 0 ≤ a.toRat) (right : 0 ≤ b.toRat) : 0 ≤ quotient.toRat :=
  div?_nonneg (orOverflow_ok.mp divided) left right

theorem subTrusted_ok {a b difference : Decimal} :
    a.subTrusted b = .ok difference ↔ a.sub? b = some difference := by
  unfold subTrusted
  cases a.sub? b <;> simp

theorem addTrusted_ok {a b sum : Decimal} : a.addTrusted b = .ok sum ↔ a.add? b = some sum := by
  unfold addTrusted
  cases a.add? b <;> simp

/-- A quotient times the divisor is no more than the dividend, up to rounding, whatever its sign. -/
theorem div_mul_le_abs {value price quotient : Decimal} (positive : 0 < price.toRat)
    (divided : value.div price = .ok quotient) :
    quotient.toRat * price.toRat ≤ value.toRat + (|value.toRat| + price.toRat) / 10 ^ 28 := by
  have near := (abs_le.mp (div_near divided)).2
  rw [abs_div, abs_of_pos positive, sub_le_iff_le_add'] at near
  calc quotient.toRat * price.toRat
      ≤ (value.toRat / price.toRat + (1 + |value.toRat| / price.toRat) / 10 ^ 28)
          * price.toRat := by gcongr
    _ = value.toRat + (|value.toRat| + price.toRat) / 10 ^ 28 := by field_simp; ring

section Dividing

variable {value price quotient : Decimal} {n : Nat}
  (nonneg : 0 ≤ value.toRat) (positive : 0 < price.toRat)
include nonneg positive

theorem div_mul_le (divided : value.div price = .ok quotient) :
    quotient.toRat * price.toRat ≤ value.toRat + (value.toRat + price.toRat) / 10 ^ 28 := by
  have near := div_mul_le_abs positive divided
  rwa [abs_of_nonneg nonneg] at near

theorem le_div_mul (divided : value.div price = .ok quotient) :
    value.toRat ≤ quotient.toRat * price.toRat + (value.toRat + price.toRat) / 10 ^ 28 := by
  have near := (div_near divided).ge (by positivity)
  calc value.toRat
      = value.toRat / price.toRat * price.toRat := by field_simp
    _ ≤ (quotient.toRat + (1 + value.toRat / price.toRat) / 10 ^ 28) * price.toRat := by gcongr
    _ = quotient.toRat * price.toRat + (value.toRat + price.toRat) / 10 ^ 28 := by
        field_simp
        ring

/-- Coins paid out for a value are worth no more than it, up to the rounding of the quotient. -/
theorem payOutAt_le (paid : value.payOutAt price = .ok n) :
    n * price.toRat ≤ value.toRat + (value.toRat + price.toRat) / 10 ^ 28 := by
  simp only [payOutAt, bind_ok] at paid
  obtain ⟨quotient, divided, truncated⟩ := paid
  -- Truncation goes down, so only the quotient itself can be too large.
  have whole := payOut_le truncated (div_nonneg divided nonneg positive.le)
  exact (mul_le_mul_of_nonneg_right whole positive.le).trans (div_mul_le nonneg positive divided)

/-- Coins paid out for a value and one more are worth more than it, up to the rounding of the
quotient. -/
theorem lt_payOutAt (paid : value.payOutAt price = .ok n) :
    value.toRat < (n + 1) * price.toRat + (value.toRat + price.toRat) / 10 ^ 28 := by
  simp only [payOutAt, bind_ok] at paid
  obtain ⟨quotient, divided, truncated⟩ := paid
  have whole := lt_payOut truncated (div_nonneg divided nonneg positive.le)
  have scaled := mul_lt_mul_of_pos_right whole positive
  linarith [le_div_mul nonneg positive divided]

/-- Coins paid in for a value are worth no less than it, up to the rounding of the quotient. -/
theorem le_payInAt (paid : value.payInAt price = .ok n) :
    value.toRat ≤ n * price.toRat + (value.toRat + price.toRat) / 10 ^ 28 := by
  simp only [payInAt, bind_ok] at paid
  obtain ⟨quotient, divided, rounded⟩ := paid
  -- Rounding goes up, so only the quotient itself can be too small.
  have whole := mul_le_mul_of_nonneg_right (le_payIn rounded) positive.le
  linarith [le_div_mul nonneg positive divided]

/-- Coins paid in for a value are worth less than it and one coin, up to the rounding of the
quotient. -/
theorem payInAt_le (paid : value.payInAt price = .ok n) :
    n * price.toRat
      ≤ value.toRat + price.toRat + (value.toRat + price.toRat) / 10 ^ 28 := by
  simp only [payInAt, bind_ok] at paid
  obtain ⟨quotient, divided, rounded⟩ := paid
  have whole := mul_le_mul_of_nonneg_right (payIn_lt rounded).le positive.le
  linarith [div_mul_le nonneg positive divided]

end Dividing

/-- Stable units paid out for a value are no more than it. -/
theorem payOutAt_pegTarget_le {value : Decimal} {n : Nat} (nonneg : 0 ≤ value.toRat)
    (paid : value.payOutAt pegTarget = .ok n) : (n : ℚ) ≤ value.toRat := by
  simp only [payOutAt, div, bind_ok, orOverflow_ok] at paid
  obtain ⟨quotient, divided, truncated⟩ := paid
  have same : quotient.toRat = value.toRat := div?_one_toRat divided
  exact (payOut_le truncated (same ▸ nonneg)).trans same.le

end Decimal

theorem Coin.worth_near {c : Coin} {price value : Decimal} (valued : c.worth price = .ok value) :
    value.Near (c.amount * price.toRat) := by
  simp only [worth, toDecimal, bind_ok] at valued
  obtain ⟨amount, counted, multiplied⟩ := valued
  rw [← Decimal.ofAmount_toRat counted]
  exact Decimal.mul_near multiplied

theorem Coin.worth_nonneg {c : Coin} {price value : Decimal} (valued : c.worth price = .ok value)
    (positive : 0 < price.toRat) : 0 ≤ value.toRat := by
  simp only [worth, toDecimal, bind_ok] at valued
  obtain ⟨amount, counted, multiplied⟩ := valued
  refine Decimal.mul_nonneg multiplied ?_ positive.le
  rw [Decimal.ofAmount_toRat counted]
  positivity

/-- Nothing is worth nothing, whatever the price. -/
theorem Coin.worth_of_zero {c : Coin} (zero : c.amount = 0) (price : Decimal) :
    c.worth price = .ok 0 := by
  have counted : c.toDecimal = .ok 0 := by
    rw [Coin.toDecimal, zero]
    rfl
  exact bind_ok.mpr ⟨0, counted, orOverflow_ok.mpr (Decimal.zero_mul? price)⟩

/-- Debt is valued at one for each stable unit. -/
theorem Coin.worth_pegTarget (c : Coin) : c.worth pegTarget = c.toDecimal := by
  cases counted : c.toDecimal with
  | error failure => simp [worth, counted, bind, Except.bind]
  | ok amount =>
    obtain ⟨-, whole⟩ := Decimal.ofParts?_eq_some.mp (orOverflow_ok.mp counted)
    have product : amount.mul? pegTarget = some amount := Decimal.mul?_one whole
    simp [worth, counted, bind, Except.bind, Decimal.mul, product, orOverflow]

namespace Engine

variable {e : Engine}

/-- A price that is used is a reported one, and positive. -/
theorem price_ok {denom : Denom} {price : Decimal} (priced : e.price denom = .ok price) :
    e.prices.get? denom = some price ∧ 0 < price.toRat := by
  simp only [Engine.price, PriceTable.price, bind_ok, require_ok, pure_ok] at priced
  obtain ⟨rate, quoted, _, positive, rfl⟩ := priced
  refine ⟨?_, by simpa using Decimal.lt_iff_toRat.mp positive⟩
  unfold PriceTable.quoted PriceTable.rate at quoted
  cases found : e.prices.get? denom with
  | none => simp [found, throw, throwThe, MonadExceptOf.throw] at quoted
  | some reported =>
    rw [found] at quoted
    cases quoted
    rfl

theorem price_of_reported {denom : Denom} {price : Decimal}
    (reported : e.prices.get? denom = some price)
    (positive : 0 < price) : e.price denom = .ok price := by
  have quoted : e.prices.quoted denom = .ok price := by
    rw [PriceTable.quoted, PriceTable.rate, reported]
    rfl
  simp only [Engine.price, PriceTable.price, bind_ok, require_ok, pure_ok]
  exact ⟨price, quoted, (), positive, rfl⟩

end Engine

end Stablecoin
