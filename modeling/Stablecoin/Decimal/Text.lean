import Stablecoin.Decimal.Basic

/-!
# Decimal text

A decimal is written with exactly `scale` digits after the point and no point at scale zero, so the
text keeps the scale. Reading also takes a plus sign, leading zeros, a missing part on one side of
the point, underscores after a digit, and a power of ten after `e` or `E`. Digits behind the point
that a decimal has no room for are rounded away.
-/
namespace Stablecoin

def digitChar (n : Nat) : Char := Char.ofNat (48 + n)

/-- The number below ten that a digit stands for. -/
def digitValue (c : Char) : Nat := c.toNat - 48

/-- The last `width` decimal digits of `n`, the most significant first. -/
def lastDigits : Nat → Nat → List Char
  | 0, _ => []
  | width + 1, n => lastDigits width (n / 10) ++ [digitChar (n % 10)]

/-- The number written by decimal digits, the most significant first. -/
def ofDigits (digits : List Char) : Nat :=
  digits.foldl (fun n c => 10 * n + digitValue c) 0

/-- An optional sign and what follows it. -/
def splitSign : List Char → Bool × List Char
  | '-' :: rest => (true, rest)
  | '+' :: rest => (false, rest)
  | rest => (false, rest)

/-- The characters of `n / 10 ^ places`, with exactly that many digits after the point. -/
def positional (n : Int) (places : Nat) : List Char :=
  let unit := tenPow places
  let fraction := if places = 0 then [] else '.' :: lastDigits places (n.natAbs % unit)
  (if n < 0 then ['-'] else []) ++ Nat.toDigits 10 (n.natAbs / unit) ++ fraction

namespace Decimal

def chars (d : Decimal) : List Char := positional d.coefficient d.scale

def text (d : Decimal) : String := String.ofList d.chars

/-- What was read of the digits of a decimal. -/
structure Digits where
  coefficient : Nat := 0
  /-- How many of the digits stand after the point. -/
  scale : Nat := 0
  /-- The point was read. -/
  pointed : Bool := false
  /-- A digit was read. -/
  started : Bool := false

namespace Digits

def push (r : Digits) (digit : Nat) : Digits :=
  { r with
    coefficient := 10 * r.coefficient + digit
    scale := if r.pointed then r.scale + 1 else r.scale
    started := true }

/-- Rounds by the first digit that is not kept, a half going up. If that takes the coefficient out
of range, the last digit after the point is rounded away as well. -/
def roundBy? (r : Digits) (digit : Nat) : Option Digits :=
  if digit < 5 then some r
  else if r.coefficient + 1 < coefficientBound then
    some { r with coefficient := r.coefficient + 1 }
  else if r.scale = 0 then none
  else some { r with coefficient := (r.coefficient + 5) / 10, scale := r.scale - 1 }

def fits (r : Digits) : Bool := r.coefficient < coefficientBound && r.scale ≤ maxScale

/-- Reads the characters that follow. The first digit behind the point that there is no room for
decides the rounding, and what stands after it is not looked at. -/
def read? (r : Digits) : List Char → Option Digits
  | [] => if r.started then some r else none
  | c :: rest =>
    if c.isDigit then
      let next := r.push (digitValue c)
      if next.fits then next.read? rest
      else if r.pointed then r.roundBy? (digitValue c)
      else none
    else if c = '.' ∧ !r.pointed then read? { r with pointed := true } rest
    else if c = '_' ∧ r.started then r.read? rest
    else none

end Digits

/-- Reads a decimal without exponent. -/
def ofPlain? (cs : List Char) : Option Decimal :=
  let (negative, body) := splitSign cs
  (Digits.read? {} body).bind fun r =>
    ofParts? (if negative then -r.coefficient else r.coefficient) r.scale

/-- Reads the digits of an exponent, after an optional plus sign. -/
def exponent? (cs : List Char) : Option Nat :=
  let digits := match cs with
    | '+' :: rest => rest
    | rest => rest
  if !digits.isEmpty ∧ digits.all Char.isDigit then some (ofDigits digits) else none

/-- A power of ten takes digits from behind the point as long as there are any; only then does it
add zeros, and at most 28 at a time. -/
def scaleUp? (d : Decimal) (exponent : Nat) : Option Decimal :=
  if exponent ≤ d.scale then ofParts? d.coefficient (d.scale - exponent)
  else if exponent ≤ maxScale then ofInt? (d.coefficient * tenPow (exponent - d.scale))
  else none

/-- A negative power of ten puts digits behind the point, at most 28 at a time. The digits that are
moved beyond the last place are rounded away, a half going away from zero. -/
def scaleDown? (d : Decimal) (exponent : Nat) : Option Decimal :=
  if maxScale < exponent then none
  else
    let unit := tenPow (d.scale + exponent - maxScale)
    let rounded := (d.coefficient.natAbs + unit / 2) / unit
    ofParts? (d.coefficient.sign * rounded) (min (d.scale + exponent) maxScale)

/-- Reads a decimal with an exponent. -/
def ofScientific? (cs : List Char) : Option Decimal :=
  let isMark := fun c => c == 'e' || c == 'E'
  (ofPlain? (cs.takeWhile fun c => !isMark c)).bind fun d =>
    match cs.dropWhile fun c => !isMark c with
    | [] => none
    | _ :: '-' :: rest => (exponent? rest).bind d.scaleDown?
    | _ :: rest => (exponent? rest).bind d.scaleUp?

/-- Reads a decimal, with or without an exponent. -/
def ofChars? (cs : List Char) : Option Decimal := (ofPlain? cs).or (ofScientific? cs)

def ofText? (s : String) : Option Decimal := ofChars? s.toList

end Decimal

end Stablecoin
