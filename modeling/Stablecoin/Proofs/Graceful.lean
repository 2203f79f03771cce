import Stablecoin.Fee
import Stablecoin.Proofs.Decimal.Range
import Stablecoin.Proofs.Valuation

/-!
# How operations fail

A rejection is defensive if it only guards against records and parameters that should not arise. An
operation is graceful if what it returns meets a postcondition, and what it answers instead is an
ordinary rejection or a failure that is excused. What is excused is left open, so that the same
lemmas serve whoever rules out faults and whoever rules out defensive rejections.
-/
namespace Stablecoin

/-- Rejections that only guard against records and parameters that should not arise. -/
def Rejection.isDefensive : Rejection → Bool
  | .invalidParams _ | .negativeAmount _ => true
  | _ => false

/-- A rejection that is not defensive. -/
def Failure.Ordinary : Failure → Prop
  | .rejected cause => cause.isDefensive = false
  | .faulted _ => False

/-- What is returned meets a postcondition, and what is answered instead is an ordinary rejection or
excused. -/
def Graceful {α : Type} (excused : Failure → Prop) (post : α → Prop) : Result α → Prop
  | .ok value => post value
  | .error failure => failure.Ordinary ∨ excused failure

/-- Amounts below zero are excused. -/
def ExcusesShort (excused : Failure → Prop) : Prop :=
  ∀ value, excused (.rejected (.negativeAmount value))

variable {excused : Failure → Prop}

namespace Graceful

variable {α β : Type} {post : α → Prop} {r : Result α}

theorem pure {value : α} (holds : post value) : Graceful excused post (pure value) := holds

theorem bind {next : α → Result β} {after : β → Prop} (first : Graceful excused post r)
    (rest : ∀ value, post value → Graceful excused after (next value)) :
    Graceful excused after (r >>= next) := by
  cases r with
  | ok value => exact rest value first
  | error failure => exact first

theorem mono {after : α → Prop} (graceful : Graceful excused post r)
    (weaker : ∀ value, post value → after value) : Graceful excused after r := by
  cases r with
  | ok value => exact weaker value graceful
  | error failure => exact graceful

/-- What is returned is also known to have been returned. -/
theorem returned (graceful : Graceful excused post r) :
    Graceful excused (fun value => r = .ok value ∧ post value) r := by
  cases r with
  | ok value => exact ⟨rfl, graceful⟩
  | error failure => exact graceful

/-- No value has to be looked at. -/
theorem weaken (graceful : Graceful excused post r) : Graceful excused (fun _ => True) r :=
  graceful.mono fun _ _ => trivial

theorem failure {failure : Failure} (graceful : Graceful excused post r)
    (failed : r = .error failure) : failure.Ordinary ∨ excused failure := by
  rwa [failed] at graceful

end Graceful

theorem reject_graceful {α : Type} {post : α → Prop} {cause : Rejection}
    (ordinary : cause.isDefensive = false) : Graceful excused post (reject cause) :=
  .inl ordinary

/-- A condition may fail if the rejection is ordinary. -/
theorem require_graceful {condition : Prop} [Decidable condition] {cause : Rejection}
    (ordinary : cause.isDefensive = false) :
    Graceful excused (fun _ => condition) (require condition cause) := by
  unfold require
  split
  next held => exact held
  next => exact reject_graceful ordinary

/-- A condition that holds is not refused. -/
theorem require_of_holds {condition : Prop} [Decidable condition] {cause : Rejection}
    (holds : condition) : Graceful excused (fun _ => condition) (require condition cause) := by
  rw [require, if_pos holds]
  exact holds

theorem orOverflow_graceful {α : Type} (value : Option α) :
    Graceful excused (fun result => value = some result) (orOverflow value) := by
  cases value with
  | none => exact reject_graceful rfl
  | some result => exact .pure rfl

/-! ### Decimals -/

namespace Decimal

variable {a b : Decimal}

theorem mul_graceful (left : 0 ≤ a.toRat) (right : 0 ≤ b.toRat) :
    Graceful excused (fun product => 0 ≤ product.toRat) (a.mul b) :=
  (orOverflow_graceful _).mono fun _ multiplied => mul?_nonneg multiplied left right

/-- A share is no more than what it is taken of. -/
theorem mul_share_graceful (nonneg : 0 ≤ a.toRat) (low : 0 ≤ b.toRat) (high : b.toRat ≤ 1) :
    Graceful excused (fun part => 0 ≤ part.toRat ∧ part.toRat ≤ a.toRat) (a.mul b) := by
  obtain ⟨part, multiplied, within⟩ := mul?_share nonneg low high
  rw [mul, multiplied]
  exact ⟨mul?_nonneg multiplied nonneg low, within⟩

theorem div_graceful (left : 0 ≤ a.toRat) (right : 0 ≤ b.toRat) :
    Graceful excused (fun quotient => 0 ≤ quotient.toRat) (a.div b) :=
  (orOverflow_graceful _).mono fun _ divided => div?_nonneg divided left right

theorem add_graceful (left : 0 ≤ a.toRat) (right : 0 ≤ b.toRat) :
    Graceful excused (fun sum => 0 ≤ sum.toRat) (a.add b) :=
  (orOverflow_graceful _).mono fun _ added => add?_nonneg added left right

theorem ofAmount_graceful (n : Nat) :
    Graceful excused (fun d : Decimal => d.toRat = n) (ofAmount n) :=
  (orOverflow_graceful _).mono fun _ counted => ofAmount_toRat (orOverflow_ok.mpr counted)

/-- A difference that is not negative is in range. -/
theorem subTrusted_graceful (nonneg : 0 ≤ b.toRat) (below : b.toRat ≤ a.toRat) :
    Graceful excused (fun rest => a.sub? b = some rest ∧ 0 ≤ rest.toRat) (a.subTrusted b) := by
  obtain ⟨rest, left, rest_nonneg⟩ := sub?_of_le nonneg below
  rw [subTrusted_ok.mpr left]
  exact ⟨left, rest_nonneg⟩

/-- What a share leaves of one is in range. -/
theorem one_subTrusted_graceful (nonneg : 0 ≤ b.toRat) (share : b.toRat ≤ 1) :
    Graceful excused (fun rest => 0 ≤ rest.toRat) (subTrusted 1 b) :=
  (subTrusted_graceful nonneg (share.trans_eq toRat_one.symm)).mono fun _ left => left.2

/-- A sum may be relied on if it is in range, or if the fault is excused. -/
theorem addTrusted_graceful
    (inRange : a.add? b ≠ none ∨ excused (.faulted .additionOverflowed)) :
    Graceful excused (fun sum => a.add? b = some sum) (a.addTrusted b) := by
  unfold addTrusted
  split
  next sum added => exact .pure added
  next overflowed => exact .inr (inRange.resolve_left (not_not_intro overflowed))

/-! ### Rounding -/

theorem truncate_nonneg (nonneg : 0 ≤ a.toRat) : 0 ≤ a.truncate :=
  Int.tdiv_nonneg (coefficient_nonneg nonneg) (Int.natCast_nonneg _)

theorem ceil_nonneg (nonneg : 0 ≤ a.toRat) : 0 ≤ a.ceil := by
  have floor : (-a.coefficient) / (tenPow a.scale : Nat) ≤ 0 :=
    Int.ediv_nonpos_of_nonpos_of_neg (neg_nonpos.mpr (coefficient_nonneg nonneg))
      (by exact_mod_cast tenPow_pos a.scale)
  rw [ceil, Int.fdiv_eq_ediv_of_nonneg _ (Int.natCast_nonneg _)]
  exact neg_nonneg.mpr floor

theorem roundHalfUp_nonneg (nonneg : 0 ≤ a.toRat) : 0 ≤ a.roundHalfUp :=
  Int.mul_nonneg (Int.sign_nonneg_iff.mpr (coefficient_nonneg nonneg)) (Int.natCast_nonneg _)

/-- Rounding to nearest does not pass a whole number. -/
theorem roundHalfUp_le {n : Nat} (nonneg : 0 ≤ a.toRat) (within : a.toRat ≤ n) :
    a.roundHalfUp ≤ n := by
  have positive := coefficient_nonneg nonneg
  have unit := tenPow_pos a.scale
  have below : a.coefficient.natAbs ≤ n * tenPow a.scale := by
    rw [toRat_eq, div_le_iff₀ (by positivity), ← cast_tenPow] at within
    zify
    rw [abs_of_nonneg positive]
    exact_mod_cast within
  have whole : (2 * a.coefficient.natAbs + tenPow a.scale) / (2 * tenPow a.scale) ≤ n := by
    have next' : (n + 1) * (2 * tenPow a.scale)
        = 2 * (n * tenPow a.scale) + 2 * tenPow a.scale := by
      ring
    rw [← Nat.lt_succ_iff, Nat.div_lt_iff_lt_mul (by omega), next']
    omega
  rw [roundHalfUp]
  rcases positive.eq_or_lt with zero | above
  · rw [← zero, Int.sign_zero, zero_mul]
    exact Int.natCast_nonneg n
  · rw [Int.sign_eq_one_of_pos above, one_mul]
    exact_mod_cast whole

end Decimal

theorem amountOf_graceful {n : Int} (nonneg : 0 ≤ n) :
    Graceful excused (fun amount : Nat => n = amount) (amountOf n) := by
  rw [amountOf, if_pos nonneg]
  exact .pure (Int.toNat_of_nonneg nonneg).symm

namespace Decimal

variable {d : Decimal}

theorem payIn_graceful (nonneg : 0 ≤ d.toRat) : Graceful excused (fun _ => True) d.payIn :=
  (amountOf_graceful (ceil_nonneg nonneg)).weaken

theorem payOut_graceful (nonneg : 0 ≤ d.toRat) :
    Graceful excused (fun n : Nat => (n : ℚ) ≤ d.toRat) d.payOut :=
  (amountOf_graceful (truncate_nonneg nonneg)).returned.mono fun _ paid =>
    payOut_le paid.1 nonneg

/-- What is charged for a value is no more than any amount that is no less than the value. -/
theorem charge_graceful (nonneg : 0 ≤ d.toRat) :
    Graceful excused (fun n => ∀ most : Nat, d.toRat ≤ most → n ≤ most) d.charge := by
  refine (amountOf_graceful (roundHalfUp_nonneg nonneg)).mono fun n rounded most within => ?_
  have below := roundHalfUp_le nonneg within
  omega

section At

variable {value price : Decimal} (nonneg : 0 ≤ value.toRat) (positive : 0 < price.toRat)
include nonneg positive

theorem payInAt_graceful : Graceful excused (fun _ => True) (value.payInAt price) :=
  (div_graceful nonneg positive.le).bind fun _ quotient => payIn_graceful quotient

theorem payOutAt_graceful : Graceful excused (fun _ => True) (value.payOutAt price) :=
  (div_graceful nonneg positive.le).bind fun _ quotient => (payOut_graceful quotient).weaken

end At

end Decimal

/-! ### Coins -/

namespace Coin

variable {c : Coin}

theorem add_graceful (n : Nat) :
    Graceful excused (fun sum => sum = ⟨c.denom, c.amount + n⟩) (c.add n) := by
  unfold Coin.add
  split
  next => exact .pure rfl
  next => exact reject_graceful rfl

/-- An amount may be taken away if it is covered, or if a shortfall is excused. -/
theorem sub_graceful {n : Nat} (covered : n ≤ c.amount ∨ ExcusesShort excused) :
    Graceful excused (fun rest => rest = ⟨c.denom, c.amount - n⟩) (c.sub n) := by
  unfold Coin.sub
  split
  next => exact .pure rfl
  next short => exact .inr (covered.resolve_left short _)

theorem withdraw_graceful (amount : Coin) :
    Graceful excused (fun _ => True) (c.withdraw amount) :=
  (require_graceful rfl).bind fun _ covered => (sub_graceful (.inl covered)).weaken

theorem requireDenom_graceful (expected : Denom) :
    Graceful excused (fun _ => c.denom = expected) (c.requireDenom expected) :=
  require_graceful rfl

theorem worth_graceful {price : Decimal} (nonneg : 0 ≤ price.toRat) :
    Graceful excused (fun value => 0 ≤ value.toRat) (c.worth price) := by
  refine (Decimal.ofAmount_graceful c.amount).bind fun amount counted => ?_
  exact Decimal.mul_graceful (counted ▸ Nat.cast_nonneg _) nonneg

/-- A fee is no more than what it is taken from unless its rate exceeds one. -/
theorem fee_graceful {rate : Option Decimal} (nonneg : ∀ r ∈ rate, 0 ≤ r.toRat) :
    Graceful excused (fun fee => (∀ r ∈ rate, r.toRat ≤ 1) → fee.amount ≤ c.amount)
      (c.fee rate) := by
  cases rate with
  | none => exact .pure fun _ => Nat.zero_le _
  | some rate =>
    have low : 0 ≤ rate.toRat := nonneg rate rfl
    refine (Decimal.ofAmount_graceful c.amount).bind fun amount counted => ?_
    have amount_nonneg : 0 ≤ amount.toRat := counted ▸ Nat.cast_nonneg _
    refine (Decimal.mul_graceful amount_nonneg low).returned.bind fun value multiplied => ?_
    refine (Decimal.charge_graceful multiplied.2).bind fun fee charged => .pure fun share => ?_
    -- The product with a share is no more than the amount, and rounding does not pass the amount.
    obtain ⟨product, same, within⟩ := Decimal.mul?_share amount_nonneg low (share rate rfl)
    cases (orOverflow_ok.mp multiplied.1).symm.trans same
    exact charged c.amount (within.trans_eq counted)

end Coin

namespace SignedCoin

variable {c : SignedCoin}

theorem move_graceful (delta : Int) : Graceful excused (fun _ => True) (c.move delta) := by
  unfold SignedCoin.move
  dsimp only
  split
  next => exact .pure trivial
  next => exact reject_graceful rfl

theorem add_graceful (n : Nat) : Graceful excused (fun _ => True) (c.add n) := move_graceful n

theorem sub_graceful (n : Nat) : Graceful excused (fun _ => True) (c.sub n) := move_graceful (-n)

end SignedCoin

end Stablecoin
