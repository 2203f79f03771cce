import Stablecoin.Binary64
import Stablecoin.Json.Basic

/-!
# JSON numbers

A number is written with an optional minus sign, digits without a zero in front, and an optional
fraction and exponent. Without these two it is whole, if it has at most 64 bits. Every other number
is taken to be a binary64 one and is kept by the fewest digits that stand for it; so it is never
whole, however it was written.
-/
namespace Stablecoin.Json.Number

/-- The digits in front, at least one, and what follows them. -/
def digits? (cs : List Char) : Option (List Char × List Char) :=
  match cs.span Char.isDigit with
  | ([], _) => none
  | (digits, rest) => some (digits, rest)

/-- The digits before the point and what follows them. Only a single digit may be zero in front. -/
def wholePart? (cs : List Char) : Option (List Char × List Char) :=
  (digits? cs).filter fun (digits, _) => digits.length = 1 || digits.head? != some '0'

/-- The digits after a point, if there is one, and what follows them. -/
def fraction? : List Char → Option (Option (List Char) × List Char)
  | '.' :: cs => (digits? cs).map fun (digits, rest) => (some digits, rest)
  | cs => some (none, cs)

/-- An exponent, if there is one, and what follows it. -/
def exponent? : List Char → Option (Option Int × List Char)
  | [] => some (none, [])
  | c :: cs =>
    if c = 'e' ∨ c = 'E' then
      let (negative, cs) := splitSign cs
      (digits? cs).map fun (digits, rest) =>
        (some (if negative then -ofDigits digits else ofDigits digits), rest)
    else some (none, c :: cs)

/-- Appends digits to a number as long as it stays below `2 ^ 64`. Returns the digits left over. -/
def pushDigits (n : Nat) : List Char → Nat × List Char
  | [] => (n, [])
  | c :: cs =>
    let next := 10 * n + digitValue c
    if next < 0x10000000000000000 then pushDigits next cs else (n, c :: cs)

/-- The binary64 number that is taken for a written one. Of its digits only those count that fit
into 64 bits. -/
def binary64? (whole fraction : List Char) (exponent : Int) : Option Binary64 :=
  let (n, dropped) := pushDigits 0 whole
  let (n, ignored) := pushDigits n fraction
  Binary64.ofScientific? n (exponent + dropped.length - (fraction.length - ignored.length : Nat))

/-- The number with these parts, if it is in range. -/
def ofParts? (negative : Bool) (whole : List Char) (fraction : Option (List Char))
    (exponent : Option Int) : Option Json :=
  let signed := fun n : Nat => if negative then -(n : Int) else n
  let n := signed (ofDigits whole)
  -- Minus zero is not a whole number.
  let plain := fraction.isNone && exponent.isNone && !(negative && n == 0)
  if plain && (Json.integer n).whole?.isSome then some (.integer n)
  else do
    let x ← binary64? whole (fraction.getD []) (exponent.getD 0)
    let (digits, power) ← x.shortest?
    pure (.float (signed digits) power)

/-- Reads a number, and returns what follows it. -/
def read? (cs : List Char) : Option (Json × List Char) := do
  let (negative, cs) := match cs with
    | '-' :: rest => (true, rest)
    | rest => (false, rest)
  let (whole, cs) ← wholePart? cs
  let (fraction, cs) ← fraction? cs
  let (exponent, cs) ← exponent? cs
  let number ← ofParts? negative whole fraction exponent
  pure (number, cs)

end Stablecoin.Json.Number
