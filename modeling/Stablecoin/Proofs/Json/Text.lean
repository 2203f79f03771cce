import Mathlib.Data.List.TakeDrop
import Stablecoin.Json.Text
import Stablecoin.Proofs.Decimal.Text

/-!
# JSON text reads back

A value that is written and then read is the same value, whatever follows it in the text, as long as
what follows cannot be taken for a part of it. This holds of numbers of at most 64 bits and of
objects whose fields have different names.
-/
namespace Stablecoin.Json

/-- Every whole number in a value has at most 64 bits, signed or not. -/
inductive Fits : Json → Prop where
  | null : Fits .null
  | bool (b : Bool) : Fits (.bool b)
  | integer {n : Int} (lower : -0x8000000000000000 ≤ n) (upper : n < 0x10000000000000000) :
    Fits (.integer n)
  | float (digits exponent : Int) : Fits (.float digits exponent)
  | string (s : String) : Fits (.string s)
  | array {items : List Json} (each : ∀ item ∈ items, Fits item) : Fits (.array items)
  | object {fields : List (String × Json)} (each : ∀ field ∈ fields, Fits field.2) :
    Fits (.object fields)

/-- A value without fractions whose objects have fields of different names and which is nested at
most so deep. -/
inductive Tidy : Nat → Json → Prop where
  | null {depth : Nat} : Tidy depth .null
  | bool {depth : Nat} (b : Bool) : Tidy depth (.bool b)
  | integer {depth : Nat} (n : Int) : Tidy depth (.integer n)
  | string {depth : Nat} (s : String) : Tidy depth (.string s)
  | array {depth : Nat} {items : List Json} (each : ∀ item ∈ items, Tidy depth item) :
    Tidy (depth + 1) (.array items)
  | object {depth : Nat} {fields : List (String × Json)} (distinct : (fields.map Prod.fst).Nodup)
    (each : ∀ field ∈ fields, Tidy depth field.2) : Tidy (depth + 1) (.object fields)

theorem fits_integer {n : Int} : (integer n).Fits ↔
    -0x8000000000000000 ≤ n ∧ n < 0x10000000000000000 where
  mp := fun (.integer lower upper) => ⟨lower, upper⟩
  mpr := fun ⟨lower, upper⟩ => .integer lower upper

theorem fits_array {items : List Json} : (array items).Fits ↔ ∀ item ∈ items, item.Fits where
  mp := fun (.array each) => each
  mpr := .array

@[simp] theorem fits_object {fields : List (String × Json)} :
    (object fields).Fits ↔ ∀ field ∈ fields, field.2.Fits where
  mp := fun (.object each) => each
  mpr := .object

@[simp] theorem tidy_object {depth : Nat} {fields : List (String × Json)} :
    (object fields).Tidy (depth + 1) ↔
      (fields.map Prod.fst).Nodup ∧ ∀ field ∈ fields, field.2.Tidy depth where
  mp := fun (.object distinct each) => ⟨distinct, each⟩
  mpr := fun ⟨distinct, each⟩ => .object distinct each

theorem whole?_integer {n : Int} (fits : (integer n).Fits) : (integer n).whole? = some n := by
  rw [whole?, if_pos (fits_integer.mp fits)]

theorem Tidy.mono {depth more : Nat} {json : Json} (tidy : json.Tidy depth) (le : depth ≤ more) :
    json.Tidy more := by
  induction tidy generalizing more with
  | null => exact .null
  | bool b => exact .bool b
  | integer n => exact .integer n
  | string s => exact .string s
  | array each ih =>
    obtain ⟨more, rfl⟩ := Nat.exists_eq_add_one_of_ne_zero (Nat.ne_zero_of_lt le)
    exact .array fun item member => ih item member (Nat.le_of_succ_le_succ le)
  | object distinct each ih =>
    obtain ⟨more, rfl⟩ := Nat.exists_eq_add_one_of_ne_zero (Nat.ne_zero_of_lt le)
    exact .object distinct fun field member => ih field member (Nat.le_of_succ_le_succ le)

/-! ### What may follow -/

/-- What can follow a value inside another one. -/
def Closes (rest : List Char) : Prop := ∀ c ∈ rest.head?, c = ',' ∨ c = ']' ∨ c = '\x7d'

theorem closes_nil : Closes [] := fun _ none => nomatch none

theorem closes_cons {c : Char} (closes : c = ',' ∨ c = ']' ∨ c = '\x7d') (rest : List Char) :
    Closes (c :: rest) := by
  intro d same
  cases same
  exact closes

theorem Closes.head {c : Char} {rest : List Char} (closes : Closes (c :: rest)) :
    c = ',' ∨ c = ']' ∨ c = '\x7d' := closes c rfl

namespace Number

/-! ### Numbers -/

theorem not_isDigit_head {rest : List Char} (closes : Closes rest) :
    ∀ c ∈ rest.head?, ¬ c.isDigit := by
  intro c head
  rcases closes c head with rfl | rfl | rfl <;> decide

theorem span_digits {digits rest : List Char} (all : ∀ c ∈ digits, c.isDigit)
    (closes : Closes rest) : (digits ++ rest).span Char.isDigit = (digits, rest) := by
  have stop : rest.takeWhile Char.isDigit = [] ∧ rest.dropWhile Char.isDigit = rest := by
    cases rest with
    | nil => exact ⟨rfl, rfl⟩
    | cons c later =>
      have no : ¬ c.isDigit := not_isDigit_head closes c rfl
      simp [no]
  rw [List.span_eq_takeWhile_dropWhile, List.takeWhile_append_of_pos all,
    List.dropWhile_append_of_pos all, stop.1, stop.2, List.append_nil]

theorem digits?_digits {digits rest : List Char} (all : ∀ c ∈ digits, c.isDigit)
    (nonempty : digits ≠ []) (closes : Closes rest) :
    digits? (digits ++ rest) = some (digits, rest) := by
  rw [digits?, span_digits all closes]
  cases digits with
  | nil => exact absurd rfl nonempty
  | cons c later => rfl

/-- Only zero is written with a zero in front. -/
theorem head?_toDigits {n : Nat} (pos : 0 < n) : (Nat.toDigits 10 n).head? ≠ some '0' := by
  induction n using Nat.strong_induction_on with
  | _ n ih =>
    by_cases small : n < 10
    · rw [Nat.toDigits_of_lt_base small]
      have digit : ∀ m < 10, 0 < m → [Nat.digitChar m].head? ≠ some '0' := by decide
      exact digit n small pos
    · rw [Nat.toDigits_of_base_le (by decide) (Nat.le_of_not_lt small),
        List.head?_append, Option.or_of_isSome (List.isSome_head?.mpr Nat.toDigits_ne_nil)]
      exact ih (n / 10) (by omega) (by omega)

theorem wholePart?_toDigits (n : Nat) {rest : List Char} (closes : Closes rest) :
    wholePart? (Nat.toDigits 10 n ++ rest) = some (Nat.toDigits 10 n, rest) := by
  rw [wholePart?, digits?_digits isDigit_toDigits Nat.toDigits_ne_nil closes, Option.filter_some,
    if_pos]
  rcases Nat.eq_zero_or_pos n with rfl | pos
  · rfl
  · simp [head?_toDigits pos]

theorem fraction?_closes {rest : List Char} (closes : Closes rest) :
    fraction? rest = some (none, rest) := by
  cases rest with
  | nil => rfl
  | cons c later => rcases closes.head with rfl | rfl | rfl <;> rfl

theorem exponent?_closes {rest : List Char} (closes : Closes rest) :
    exponent? rest = some (none, rest) := by
  cases rest with
  | nil => rfl
  | cons c later => rcases closes.head with rfl | rfl | rfl <;> rfl

theorem chars_integer (n : Int) :
    Text.chars (.integer n) = (if n < 0 then ['-'] else []) ++ Nat.toDigits 10 n.natAbs := by
  simp [Text.chars, positional]

theorem ofParts?_toDigits {n : Int} (fits : (integer n).Fits) :
    ofParts? (decide (n < 0)) (Nat.toDigits 10 n.natAbs) none none = some (.integer n) := by
  have whole := whole?_integer fits
  have digits := ofDigits_toDigits n.natAbs
  have signed : (if decide (n < 0) then -(n.natAbs : Int) else n.natAbs) = n := by
    split
    next negative =>
      have negative := of_decide_eq_true negative
      omega
    next nonneg =>
      have nonneg : ¬ n < 0 := by simpa using nonneg
      omega
  have zero : (decide (n < 0) && n == 0) = false := by
    rw [Bool.and_eq_false_iff, decide_eq_false_iff_not, beq_eq_false_iff_ne]
    omega
  simp only [ofParts?, digits, signed, whole, zero]
  rfl

/-- Reads a number behind its sign. How its parts are put together is left open: what is read does
not depend on it. -/
def readParts? (finish : List Char → Option (List Char) → Option Int → Option Json)
    (cs : List Char) : Option (Json × List Char) := do
  let (whole, cs) ← wholePart? cs
  let (fraction, cs) ← fraction? cs
  let (exponent, cs) ← exponent? cs
  let number ← finish whole fraction exponent
  pure (number, cs)

theorem readParts?_toDigits
    (finish : List Char → Option (List Char) → Option Int → Option Json) (n : Nat)
    {rest : List Char} (closes : Closes rest) :
    readParts? finish (Nat.toDigits 10 n ++ rest)
      = (finish (Nat.toDigits 10 n) none none).map fun number => (number, rest) := by
  simp [readParts?, wholePart?_toDigits n closes, fraction?_closes closes,
    exponent?_closes closes, Option.map_eq_bind]

theorem read?_minus (cs : List Char) : read? ('-' :: cs) = readParts? (ofParts? true) cs := rfl

theorem read?_of_isDigit {c : Char} (digit : c.isDigit) (cs : List Char) :
    read? (c :: cs) = readParts? (ofParts? false) (c :: cs) := by
  unfold read?
  split
  next negative body sign =>
    split at sign
    next minus =>
      cases minus
      cases digit
    next =>
      cases sign
      rfl

theorem read?_chars {n : Int} (fits : (integer n).Fits) {rest : List Char} (closes : Closes rest) :
    read? (Text.chars (.integer n) ++ rest) = some (.integer n, rest) := by
  have written := ofParts?_toDigits fits
  rw [chars_integer]
  split
  next negative =>
    rw [decide_eq_true negative] at written
    rw [List.append_assoc, List.singleton_append, read?_minus, readParts?_toDigits _ _ closes,
      written]
    rfl
  next nonneg =>
    rw [decide_eq_false nonneg] at written
    obtain ⟨c, later, digits, digit⟩ := toDigits_eq_cons n.natAbs
    have read := readParts?_toDigits (ofParts? false) n.natAbs closes
    rw [written, digits, List.cons_append] at read
    rw [List.nil_append, digits, List.cons_append, read?_of_isDigit digit, read]
    rfl

end Number

namespace Text

/-! ### Strings -/

/-- A letter stands for the character that is written with it, and is not the one that announces a
number. -/
theorem escaped?_letter {c letter : Char} (short : letter? c = some letter) :
    escaped? letter = some c ∧ letter ≠ 'u' := by
  unfold letter? at short
  split at short <;> cases short <;> exact ⟨rfl, by decide⟩

/-- Quote and backslash, at which reading a string stops or turns, have letters. -/
theorem ne_of_letter?_eq_none {c : Char} (none : letter? c = none) : c ≠ '"' ∧ c ≠ '\\' := by
  constructor <;> rintro rfl <;> cases none

theorem units?_escape (c : Char) (rest : List Char) :
    units? (escape c ++ rest)
      = (units? rest).map fun (units, rest) => (c.toNat :: units, rest) := by
  unfold escape
  split
  next letter short =>
    obtain ⟨back, number⟩ := escaped?_letter short
    simp [units?, back, number, Option.map_eq_bind]
  next plain =>
    split
    next control =>
      have code : hexNumber? ['0', '0', Nat.digitChar (c.toNat / 16), Nat.digitChar (c.toNat % 16)]
          = some c.toNat := by
        have each : ∀ n < 0x20, hexNumber? ['0', '0', Nat.digitChar (n / 16),
          Nat.digitChar (n % 16)] = some n := by decide
        exact each c.toNat control
      simp [units?, code, Option.map_eq_bind]
    next visible =>
      obtain ⟨quote, slash⟩ := ne_of_letter?_eq_none plain
      rw [List.singleton_append, units?]
      · rw [if_neg quote, if_neg visible]
      all_goals
        intros
        contradiction

theorem units?_escaped (cs rest : List Char) :
    units? (cs.flatMap escape ++ '"' :: rest) = some (cs.map Char.toNat, rest) := by
  induction cs with
  | nil => simp [units?]
  | cons c later ih => simp [List.append_assoc, units?_escape, ih]

/-- No character is a surrogate. -/
theorem joinUnits?_toNat (cs : List Char) : joinUnits? (cs.map Char.toNat) = some cs := by
  induction cs with
  | nil => rfl
  | cons c later ih =>
    have scalar : c.toNat < 0xd800 ∨ 0xe000 ≤ c.toNat := c.valid.imp id And.left
    rw [List.map_cons]
    unfold joinUnits?
    rw [if_pos scalar, ih, Char.ofNat_toNat]
    rfl

theorem string?_quoted (s : String) (rest : List Char) :
    string? (s.toList.flatMap escape ++ '"' :: rest) = some (s, rest) := by
  simp [string?, units?_escaped, joinUnits?_toNat]

/-! ### Items -/

/-- A character that neither is a blank nor closes an array or an object. -/
def Opens (c : Char) : Prop :=
  c ≠ ' ' ∧ c ≠ '\n' ∧ c ≠ '\r' ∧ c ≠ '\t' ∧ c ≠ ']' ∧ c ≠ '\x7d'

instance (c : Char) : Decidable (Opens c) := inferInstanceAs (Decidable (_ ∧ _))

theorem skipBlanks_of_opens {c : Char} (opens : Opens c) (cs : List Char) :
    skipBlanks (c :: cs) = c :: cs := by
  obtain ⟨space, feed, back, tab, -⟩ := opens
  simp [skipBlanks, space, feed, back, tab]

/-- Characters are read as one item, whatever follows. -/
structure Reads {α : Type} (item? : List Char → Option (α × List Char)) (cs : List Char) (a : α) :
    Prop where
  opens : ∃ c later, cs = c :: later ∧ Opens c
  read : ∀ {rest}, Closes rest → item? (cs ++ rest) = some (a, rest)

variable {α : Type} {item? : List Char → Option (α × List Char)} {write : α → List Char}
  {items : List α} {close : Char}

theorem skipBlanks_closing (closing : close = ']' ∨ close = '\x7d') (rest : List Char) :
    skipBlanks (close :: rest) = close :: rest := by
  rcases closing with rfl | rfl <;> rfl

/-- The items are read one by one, each up to the comma or the bracket behind it. -/
theorem items?_joined (closing : close = ']' ∨ close = '\x7d') {count : Nat}
    (nonempty : items ≠ []) (enough : items.length ≤ count)
    (each : ∀ a ∈ items, Reads item? (write a) a) (rest : List Char) :
    items? item? close count ([','].intercalate (items.map write) ++ close :: rest)
      = some (items, rest) := by
  induction items generalizing count with
  | nil => exact absurd rfl nonempty
  | cons a later ih =>
    obtain ⟨count, rfl⟩ := Nat.exists_eq_add_one_of_ne_zero (Nat.ne_zero_of_lt enough)
    have first := each a List.mem_cons_self
    cases later with
    | nil =>
      have read := first.read (closes_cons (Or.inr closing) rest)
      simp [items?, read, skipBlanks_closing closing]
    | cons b others =>
      have next := ih (List.cons_ne_nil b others) (Nat.le_of_succ_le_succ enough)
        fun item member => each item (List.mem_cons_of_mem a member)
      have read := first.read
        (closes_cons (Or.inl rfl) ([','].intercalate ((b :: others).map write) ++ close :: rest))
      have comma : ∀ cs, skipBlanks (',' :: cs) = ',' :: cs := fun _ => rfl
      -- What follows the first item starts with a comma, so the item ends there.
      have goesOn : ',' ≠ close := by rcases closing with rfl | rfl <;> decide
      rw [List.map_cons] at next read
      simp [items?, List.append_assoc, read, comma, goesOn, next]

theorem joined_cons (write : α → List Char) (a : α) (later : List α) :
    ∃ behind, [','].intercalate ((a :: later).map write) = write a ++ behind := by
  cases later with
  | nil => exact ⟨[], by simp⟩
  | cons b others =>
    exact ⟨[','] ++ [','].intercalate ((b :: others).map write), by simp⟩

/-- Every item takes a character. -/
theorem length_le_joined (each : ∀ a ∈ items, Reads item? (write a) a) :
    items.length ≤ ([','].intercalate (items.map write)).length := by
  induction items with
  | nil => exact Nat.le_refl 0
  | cons a later ih =>
    obtain ⟨c, rest, written, -⟩ := (each a List.mem_cons_self).opens
    have shorter := ih fun item member => each item (List.mem_cons_of_mem a member)
    cases later with
    | nil => simp [written]
    | cons b others =>
      simp only [List.map_cons, List.intercalate_cons_cons, List.length_append, List.length_cons,
        written] at shorter ⊢
      omega

theorem bracketed?_joined (closing : close = ']' ∨ close = '\x7d')
    (each : ∀ a ∈ items, Reads item? (write a) a) (rest : List Char) :
    bracketed? item? close ([','].intercalate (items.map write) ++ close :: rest)
      = some (items, rest) := by
  cases items with
  | nil => simp [bracketed?, skipBlanks_closing closing]
  | cons a later =>
    have enough : (a :: later).length
        ≤ ([','].intercalate ((a :: later).map write) ++ close :: rest).length := by
      rw [List.length_append]
      exact (length_le_joined each).trans (Nat.le_add_right _ _)
    have read := items?_joined closing (List.cons_ne_nil a later) enough each rest
    obtain ⟨c, more, written, opens⟩ := (each a List.mem_cons_self).opens
    obtain ⟨behind, joined⟩ := joined_cons write a later
    have goesOn : c ≠ close := by
      obtain ⟨-, -, -, -, square, curly⟩ := opens
      rcases closing with rfl | rfl
      · exact square
      · exact curly
    rw [joined, written, List.append_assoc, List.cons_append] at read ⊢
    rw [bracketed?, skipBlanks_of_opens opens]
    simp only [if_neg goesOn]
    exact read

/-! ### Values -/

theorem itemChars_eq (items : List Json) :
    itemChars items = [','].intercalate (items.map chars) := by
  induction items with
  | nil => rfl
  | cons item later ih =>
    cases later with
    | nil => simp [itemChars]
    | cons other others => simp [itemChars, ih]

/-- A field as it is written. -/
def oneField (field : String × Json) : List Char := quoted field.1 ++ ':' :: chars field.2

theorem fieldChars_eq (fields : List (String × Json)) :
    fieldChars fields = [','].intercalate (fields.map oneField) := by
  induction fields with
  | nil => rfl
  | cons field later ih =>
    cases later with
    | nil => simp [fieldChars, oneField]
    | cons other others => simp [fieldChars, ih, oneField]

theorem lastOfEach_of_nodup {fields : List (String × Json)}
    (distinct : (fields.map Prod.fst).Nodup) : lastOfEach fields = fields := by
  induction fields with
  | nil => rfl
  | cons field later ih =>
    obtain ⟨fresh, rest⟩ := List.nodup_cons.mp distinct
    have kept : lastOfEach later = later := ih rest
    have unseen : (later.any fun other => other.1 == field.1) = false := by
      rw [List.any_eq_false]
      intro other member same
      exact fresh (List.mem_map.mpr ⟨other, member, eq_of_beq same⟩)
    rw [lastOfEach] at kept ⊢
    rw [List.foldr_cons, kept, unseen]
    rfl

theorem reads_field {value? : List Char → Option (Json × List Char)} {field : String × Json}
    (value : Reads value? (chars field.2) field.2) :
    Reads (field? value?) (oneField field) field where
  opens := ⟨'"', _, rfl, by decide⟩
  read {rest} closes := by
    have name := string?_quoted field.1 (':' :: (chars field.2 ++ rest))
    have stays : ∀ cs, skipBlanks ('"' :: cs) = '"' :: cs := fun _ => rfl
    have colon : ∀ cs, skipBlanks (':' :: cs) = ':' :: cs := fun _ => rfl
    simp [oneField, quoted, field?, stays, colon, name, value.read closes]

/-- What opens neither an array nor an object is read as a scalar. -/
theorem reads_scalar {c : Char} {later : List Char} {json : Json} (depth : Nat) (opens : Opens c)
    (square : c ≠ '[') (curly : c ≠ '\x7b')
    (read : ∀ {rest}, Closes rest → scalar? (c :: later ++ rest) = some (json, rest)) :
    Reads (value? depth) (c :: later) json where
  opens := ⟨c, later, rfl, opens⟩
  read {rest} closes := by
    have scalar := read closes
    rw [List.cons_append] at scalar ⊢
    cases depth with
    | zero => rw [value?, skipBlanks_of_opens opens, scalar]
    | succ depth =>
      rw [value?, skipBlanks_of_opens opens]
      split
      next same => exact absurd (List.cons.inj same).1 square
      next same => exact absurd (List.cons.inj same).1 curly
      next => exact scalar

/-- What a number starts with is nothing else. -/
theorem ne_of_number {c : Char} (number : c = '-' ∨ c.isDigit) (d : Char) (minus : d ≠ '-')
    (digit : ¬ d.isDigit) : c ≠ d := by
  rintro rfl
  exact number.elim minus digit

theorem opens_of_number {c : Char} (number : c = '-' ∨ c.isDigit) : Opens c := by
  refine ⟨?_, ?_, ?_, ?_, ?_, ?_⟩ <;> exact ne_of_number number _ (by decide) (by decide)

/-- A number starts neither like a string nor like a word. -/
theorem scalar?_of_number {c : Char} (number : c = '-' ∨ c.isDigit) (cs : List Char) :
    scalar? (c :: cs) = Number.read? (c :: cs) := by
  have quote := ne_of_number number '"' (by decide) (by decide)
  have n := ne_of_number number 'n' (by decide) (by decide)
  have t := ne_of_number number 't' (by decide) (by decide)
  have f := ne_of_number number 'f' (by decide) (by decide)
  simp [scalar?, word?, quote, n, t, f]

theorem chars_integer_eq_cons (n : Int) :
    ∃ c later, chars (.integer n) = c :: later ∧ (c = '-' ∨ c.isDigit) := by
  rw [Number.chars_integer]
  split
  next => exact ⟨'-', _, rfl, Or.inl rfl⟩
  next =>
    obtain ⟨c, later, digits, digit⟩ := toDigits_eq_cons n.natAbs
    exact ⟨c, later, digits, Or.inr digit⟩

theorem reads_integer (depth : Nat) {n : Int} (fits : (integer n).Fits) :
    Reads (value? depth) (chars (.integer n)) (.integer n) := by
  obtain ⟨c, later, written, number⟩ := chars_integer_eq_cons n
  have read {rest : List Char} (closes : Closes rest) := Number.read?_chars fits closes
  rw [written] at read ⊢
  refine reads_scalar depth (opens_of_number number)
    (ne_of_number number _ (by decide) (by decide))
    (ne_of_number number _ (by decide) (by decide)) fun closes => ?_
  rw [List.cons_append, scalar?_of_number number]
  exact read closes

/-- A tidy value whose numbers fit is read as it was written. -/
theorem reads_chars {depth : Nat} {json : Json} (tidy : json.Tidy depth) (fits : json.Fits) :
    Reads (value? depth) (chars json) json := by
  -- By how the value is built: what is inside a bracket is read with one less level to spare.
  induction tidy with
  | null => exact reads_scalar _ (by decide) (by decide) (by decide) fun _ => rfl
  | bool b =>
    cases b with
    | false => exact reads_scalar _ (by decide) (by decide) (by decide) fun _ => rfl
    | true => exact reads_scalar _ (by decide) (by decide) (by decide) fun _ => rfl
  | integer n => exact reads_integer _ fits
  | string s =>
    refine reads_scalar _ (by decide) (by decide) (by decide) fun {rest} _ => ?_
    simp [scalar?, string?_quoted]
  | array each ih =>
    cases fits with
    | array fit =>
      refine ⟨⟨'[', _, rfl, by decide⟩, fun {rest} _ => ?_⟩
      have closing : ']' = ']' ∨ ']' = '\x7d' := Or.inl rfl
      have items := bracketed?_joined closing
        (fun item member => ih item member (fit item member)) rest
      have stays : ∀ cs, skipBlanks ('[' :: cs) = '[' :: cs := fun _ => rfl
      simp [chars, itemChars_eq, value?, stays, items]
  | object distinct each ih =>
    cases fits with
    | object fit =>
      refine ⟨⟨'\x7b', _, rfl, by decide⟩, fun {rest} _ => ?_⟩
      have closing : '\x7d' = ']' ∨ '\x7d' = '\x7d' := Or.inr rfl
      have fields := bracketed?_joined closing
        (fun field member => reads_field (ih field member (fit field member))) rest
      have stays : ∀ cs, skipBlanks ('\x7b' :: cs) = '\x7b' :: cs := fun _ => rfl
      simp [chars, fieldChars_eq, value?, stays, fields, lastOfEach_of_nodup distinct]

end Text

/-- The text of a tidy value whose numbers fit gives back the value. -/
theorem ofText?_text {json : Json} {depth : Nat} (tidy : json.Tidy depth) (shallow : depth ≤ 127)
    (fits : json.Fits) : ofText? json.text = some json := by
  have read := (Text.reads_chars (tidy.mono shallow) fits).read closes_nil
  rw [List.append_nil] at read
  rw [ofText?, text, String.toList_ofList, read]
  rfl

end Stablecoin.Json
