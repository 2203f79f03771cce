import Mathlib.Tactic.Ring
import Stablecoin.Decimal.Text

/-!
# The text of a decimal reads back

The digits that a decimal is written with are those of its coefficient, and as many stand after the
point as its scale says. None of them is rounded away on reading, since at every point the digits
read so far are no more than the coefficient. So the text gives back coefficient and scale.
-/
namespace Stablecoin

/-! ### Digits -/

theorem isDigit_digitChar : ∀ {n : Nat}, n < 10 → (digitChar n).isDigit := by decide

theorem digitValue_digitChar : ∀ {n : Nat}, n < 10 → digitValue (digitChar n) = n := by decide

/-- The number that digits continue another one to. -/
def continueDigits (n : Nat) (digits : List Char) : Nat :=
  digits.foldl (fun n c => 10 * n + digitValue c) n

theorem continueDigits_append (n : Nat) (xs ys : List Char) :
    continueDigits n (xs ++ ys) = continueDigits (continueDigits n xs) ys := List.foldl_append

theorem le_continueDigits (n : Nat) (digits : List Char) : n ≤ continueDigits n digits := by
  induction digits generalizing n with
  | nil => exact Nat.le_refl n
  | cons c rest ih =>
    have more : 10 * n + digitValue c ≤ continueDigits (10 * n + digitValue c) rest := ih _
    change n ≤ continueDigits (10 * n + digitValue c) rest
    omega

theorem ofDigits_toDigits (n : Nat) : ofDigits (Nat.toDigits 10 n) = n :=
  Nat.ofDigitChars_ten_toDigits

theorem length_lastDigits (width n : Nat) : (lastDigits width n).length = width := by
  induction width generalizing n with
  | zero => rfl
  | succ width ih => rw [lastDigits, List.length_append, ih, List.length_singleton]

theorem isDigit_of_mem_lastDigits {width n : Nat} {c : Char} (member : c ∈ lastDigits width n) :
    c.isDigit := by
  induction width generalizing n with
  | zero => cases member
  | succ width ih =>
    rcases List.mem_append.mp member with front | last
    · exact ih front
    · rw [List.mem_singleton.mp last]
      exact isDigit_digitChar (Nat.mod_lt n (by decide))

theorem continueDigits_lastDigits (m width n : Nat) :
    continueDigits m (lastDigits width n) = m * tenPow width + n % tenPow width := by
  induction width generalizing n with
  | zero => simp [lastDigits, continueDigits, Nat.mod_one]
  | succ width ih =>
    have split : n % tenPow (width + 1) = 10 * (n / 10 % tenPow width) + n % 10 := by
      rw [tenPow_succ, Nat.mul_comm, Nat.mod_mul]
      omega
    rw [lastDigits, continueDigits_append, ih, split, tenPow_succ]
    change 10 * (m * tenPow width + n / 10 % tenPow width) + digitValue (digitChar (n % 10)) = _
    rw [digitValue_digitChar (Nat.mod_lt n (by decide))]
    ring

theorem isDigit_toDigits {n : Nat} : ∀ c ∈ Nat.toDigits 10 n, c.isDigit :=
  fun _ => Nat.isDigit_of_mem_toDigits (by decide) (by decide)

theorem toDigits_eq_cons (n : Nat) :
    ∃ c later, Nat.toDigits 10 n = c :: later ∧ c.isDigit := by
  obtain ⟨c, later, digits⟩ : ∃ c later, Nat.toDigits 10 n = c :: later :=
    List.exists_cons_of_ne_nil Nat.toDigits_ne_nil
  exact ⟨c, later, digits, isDigit_toDigits c (digits ▸ List.mem_cons_self)⟩

/-- A digit is no sign. -/
theorem splitSign_of_isDigit {c : Char} {rest : List Char} (digit : c.isDigit) :
    splitSign (c :: rest) = (false, c :: rest) := by
  unfold splitSign
  split
  next same => cases same; cases digit
  next same => cases same; cases digit
  next => rfl

namespace Decimal

/-! ### Reading digits -/

namespace Digits

/-- What is read after more digits, if all of them are kept. -/
def pushAll (r : Digits) (digits : List Char) : Digits where
  coefficient := continueDigits r.coefficient digits
  scale := if r.pointed then r.scale + digits.length else r.scale
  pointed := r.pointed
  started := r.started || !digits.isEmpty

theorem pushAll_cons (r : Digits) (c : Char) (rest : List Char) :
    r.pushAll (c :: rest) = (r.push (digitValue c)).pushAll rest := by
  unfold pushAll push
  cases pointed : r.pointed with
  | false => simp [continueDigits]
  | true => simp [continueDigits]; omega

theorem fits_iff {r : Digits} : r.fits ↔ r.coefficient < coefficientBound ∧ r.scale ≤ maxScale := by
  simp [fits]

/-- What still fits with more digits fits with fewer. -/
theorem fits_of_pushAll {r : Digits} {digits : List Char} (fits : (r.pushAll digits).fits) :
    r.fits := by
  rw [fits_iff] at fits ⊢
  obtain ⟨small, short⟩ := fits
  refine ⟨(le_continueDigits r.coefficient digits).trans_lt small, ?_⟩
  dsimp only [pushAll] at short
  split at short
  next => exact (Nat.le_add_right _ _).trans short
  next => exact short

theorem read?_digits {r : Digits} {digits : List Char} (all : ∀ c ∈ digits, c.isDigit)
    (fits : (r.pushAll digits).fits) (rest : List Char) :
    r.read? (digits ++ rest) = (r.pushAll digits).read? rest := by
  induction digits generalizing r with
  | nil => simp [pushAll, continueDigits]
  | cons c later ih =>
    rw [pushAll_cons] at fits ⊢
    rw [List.cons_append, read?, if_pos (all c List.mem_cons_self), if_pos (fits_of_pushAll fits)]
    exact ih (fun other member => all other (List.mem_cons_of_mem c member)) fits

end Digits

/-! ### Reading a written decimal -/

/-- The characters of a decimal behind its sign. -/
def bodyChars (d : Decimal) : List Char :=
  Nat.toDigits 10 (d.coefficient.natAbs / tenPow d.scale)
    ++ if d.scale = 0 then [] else '.' :: lastDigits d.scale (d.coefficient.natAbs % tenPow d.scale)

theorem chars_eq (d : Decimal) :
    d.chars = (if d.coefficient < 0 then ['-'] else []) ++ d.bodyChars := by
  simp [chars, positional, bodyChars]

/-- The digits in front of the point are those of the whole part. -/
theorem read?_wholeDigits (d : Decimal) (rest : List Char) :
    Digits.read? {} (Nat.toDigits 10 (d.coefficient.natAbs / tenPow d.scale) ++ rest)
      = Digits.read? ⟨d.coefficient.natAbs / tenPow d.scale, 0, false, true⟩ rest := by
  have value := ofDigits_toDigits (d.coefficient.natAbs / tenPow d.scale)
  have digit := isDigit_toDigits (n := d.coefficient.natAbs / tenPow d.scale)
  have nonempty := Nat.toDigits_ne_nil (n := d.coefficient.natAbs / tenPow d.scale) (b := 10)
  have smaller := Nat.div_le_self d.coefficient.natAbs (tenPow d.scale)
  generalize Nat.toDigits 10 (d.coefficient.natAbs / tenPow d.scale) = digits
    at value digit nonempty
  have pushed : Digits.pushAll {} digits
      = ⟨d.coefficient.natAbs / tenPow d.scale, 0, false, true⟩ := by
    have counted : continueDigits 0 digits = d.coefficient.natAbs / tenPow d.scale := value
    simp [Digits.pushAll, counted, nonempty]
  have fits : (Digits.pushAll {} digits).fits := by
    rw [pushed, Digits.fits_iff]
    exact ⟨smaller.trans_lt d.coefficient_lt, Nat.zero_le _⟩
  rw [Digits.read?_digits digit fits, pushed]

/-- The digits behind the point complete the coefficient. -/
theorem read?_fraction (d : Decimal) :
    Digits.read? ⟨d.coefficient.natAbs / tenPow d.scale, 0, true, true⟩
        (lastDigits d.scale (d.coefficient.natAbs % tenPow d.scale))
      = some ⟨d.coefficient.natAbs, d.scale, true, true⟩ := by
  have pushed : Digits.pushAll ⟨d.coefficient.natAbs / tenPow d.scale, 0, true, true⟩
      (lastDigits d.scale (d.coefficient.natAbs % tenPow d.scale))
        = ⟨d.coefficient.natAbs, d.scale, true, true⟩ := by
    simp [Digits.pushAll, continueDigits_lastDigits, length_lastDigits, Nat.div_add_mod']
  have fits : (Digits.pushAll ⟨d.coefficient.natAbs / tenPow d.scale, 0, true, true⟩
      (lastDigits d.scale (d.coefficient.natAbs % tenPow d.scale))).fits := by
    rw [pushed, Digits.fits_iff]
    exact ⟨d.coefficient_lt, d.scale_le⟩
  have read := Digits.read?_digits (fun c => isDigit_of_mem_lastDigits) fits []
  rw [pushed, List.append_nil] at read
  exact read

/-- Behind its sign a decimal is read with its coefficient and its scale. -/
theorem read?_bodyChars (d : Decimal) :
    ∃ r : Digits, Digits.read? {} d.bodyChars = some r ∧ r.coefficient = d.coefficient.natAbs ∧
      r.scale = d.scale := by
  rw [bodyChars, read?_wholeDigits]
  split
  next none =>
    refine ⟨_, rfl, ?_, none.symm⟩
    rw [none, tenPow_zero, Nat.div_one]
  next => exact ⟨_, d.read?_fraction, rfl, rfl⟩

theorem splitSign_bodyChars (d : Decimal) : splitSign d.bodyChars = (false, d.bodyChars) := by
  obtain ⟨c, later, digits, digit⟩ := toDigits_eq_cons (d.coefficient.natAbs / tenPow d.scale)
  rw [bodyChars, digits, List.cons_append]
  exact splitSign_of_isDigit digit

/-- A decimal written after a minus sign is read with its coefficient negated. -/
theorem ofPlain?_minus (d : Decimal) :
    ofPlain? ('-' :: d.bodyChars) = ofParts? (-d.coefficient.natAbs) d.scale := by
  obtain ⟨r, read, coefficient, scale⟩ := d.read?_bodyChars
  simp [ofPlain?, splitSign, read, coefficient, scale]

theorem ofPlain?_chars (d : Decimal) : ofPlain? d.chars = some d := by
  rw [chars_eq]
  split
  next negative =>
    rw [List.singleton_append, ofPlain?_minus, ofParts?_eq_some]
    exact ⟨by omega, rfl⟩
  next nonneg =>
    obtain ⟨r, read, coefficient, scale⟩ := d.read?_bodyChars
    rw [List.nil_append, ofPlain?, splitSign_bodyChars]
    simp only [read, Option.bind_some, Bool.false_eq_true, if_false]
    rw [ofParts?_eq_some]
    exact ⟨by omega, scale.symm⟩

/-- The text of a decimal gives back its coefficient and its scale. -/
theorem ofText?_text (d : Decimal) : ofText? d.text = some d := by
  rw [ofText?, text, String.toList_ofList, ofChars?, ofPlain?_chars]
  rfl

example : ofText? "-0.50" = some { coefficient := -50, scale := 2 } := by decide

/-- A zero with a minus sign is read as plain zero of the same scale. -/
theorem ofText?_minus_zero {d : Decimal} (zero : d.isZero) : ofText? ("-" ++ d.text) = some d := by
  have none : d.coefficient = 0 := by simpa [isZero] using zero
  have written : ("-" ++ d.text).toList = '-' :: d.bodyChars := by
    simp [text, chars_eq, none]
  have read : ofPlain? ('-' :: d.bodyChars) = some d := by
    rw [ofPlain?_minus, ofParts?_eq_some]
    exact ⟨by rw [none]; rfl, rfl⟩
  rw [ofText?, written, ofChars?, read]
  rfl

end Decimal

end Stablecoin
