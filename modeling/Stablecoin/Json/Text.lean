import Stablecoin.Json.Number

/-!
# JSON text

A value is written without blanks. Reading passes over blanks between the parts of a value; of two
fields with one name the later one counts. Arrays and objects are nested at most 127 deep.
-/
namespace Stablecoin.Json.Text

/-! ## Strings -/

def hexValue? (c : Char) : Option Nat :=
  if c.isDigit then some (c.toNat - 48)
  else if 'a' ≤ c ∧ c ≤ 'f' then some (c.toNat - 87)
  else if 'A' ≤ c ∧ c ≤ 'F' then some (c.toNat - 55)
  else none

def hexNumber? (cs : List Char) : Option Nat :=
  cs.foldlM (fun n c => (hexValue? c).map fun digit => 16 * n + digit) 0

/-- The character that an escape of one letter stands for. -/
def escaped? : Char → Option Char
  | '"' => some '"'
  | '\\' => some '\\'
  | '/' => some '/'
  | 'b' => some '\x08'
  | 'f' => some '\x0c'
  | 'n' => some '\n'
  | 'r' => some '\r'
  | 't' => some '\t'
  | _ => none

/-- Reads a string up to its closing quote, and returns what follows that. Characters are given by
number, and a character beyond 16 bits may come as its two surrogates. -/
def units? : List Char → Option (List Nat × List Char)
  | [] => none
  | '\\' :: 'u' :: a :: b :: c :: d :: cs => do
    let unit ← hexNumber? [a, b, c, d]
    let (units, rest) ← units? cs
    pure (unit :: units, rest)
  | '\\' :: c :: cs => do
    let char ← escaped? c
    let (units, rest) ← units? cs
    pure (char.toNat :: units, rest)
  | c :: cs =>
    if c = '"' then some ([], cs)
    else if c.toNat < 0x20 then none
    else (units? cs).map fun (units, rest) => (c.toNat :: units, rest)

/-- Puts surrogates together. One that stands alone is refused. -/
def joinUnits? : List Nat → Option (List Char)
  | [] => some []
  | high :: rest =>
    if high < 0xd800 ∨ 0xe000 ≤ high then (joinUnits? rest).map (Char.ofNat high :: ·)
    else if high < 0xdc00 then
      match rest with
      | low :: rest =>
        if 0xdc00 ≤ low ∧ low < 0xe000 then
          let n := 0x10000 + 0x400 * (high - 0xd800) + (low - 0xdc00)
          (joinUnits? rest).map (Char.ofNat n :: ·)
        else none
      | [] => none
    else none

/-- Reads what follows the opening quote of a string. -/
def string? (cs : List Char) : Option (String × List Char) := do
  let (units, rest) ← units? cs
  let chars ← joinUnits? units
  pure (String.ofList chars, rest)

/-- The letter of the escape that a character is written with, if it has one. A solidus is written
as it is. -/
def letter? : Char → Option Char
  | '"' => some '"'
  | '\\' => some '\\'
  | '\x08' => some 'b'
  | '\x0c' => some 'f'
  | '\n' => some 'n'
  | '\r' => some 'r'
  | '\t' => some 't'
  | _ => none

/-- A character as it is written in a string: control characters without a letter by number. -/
def escape (c : Char) : List Char :=
  match letter? c with
  | some letter => ['\\', letter]
  | none =>
    if c.toNat < 0x20 then
      ['\\', 'u', '0', '0', Nat.digitChar (c.toNat / 16), Nat.digitChar (c.toNat % 16)]
    else [c]

/-- The characters of a string with its quotes. -/
def quoted (s : String) : List Char := '"' :: s.toList.flatMap escape ++ ['"']

/-! ## Values -/

mutual

def chars : Json → List Char
  | .null => "null".toList
  | .bool b => (if b then "true" else "false").toList
  | .integer n => positional n 0
  | .float digits exponent => positional digits 0 ++ 'e' :: positional exponent 0
  | .string s => quoted s
  | .array items => '[' :: itemChars items ++ [']']
  | .object fields => '\x7b' :: fieldChars fields ++ ['\x7d']

/-- The characters of values with commas between them. -/
def itemChars : List Json → List Char
  | [] => []
  | [item] => chars item
  | item :: rest => chars item ++ ',' :: itemChars rest

/-- The characters of fields with commas between them. -/
def fieldChars : List (String × Json) → List Char
  | [] => []
  | [(name, value)] => quoted name ++ ':' :: chars value
  | (name, value) :: rest => quoted name ++ ':' :: chars value ++ ',' :: fieldChars rest

end

def skipBlanks (cs : List Char) : List Char :=
  cs.dropWhile fun c => c = ' ' || c = '\n' || c = '\r' || c = '\t'

/-- Reads one of the three words. -/
def word? : List Char → Option (Json × List Char)
  | 'n' :: 'u' :: 'l' :: 'l' :: rest => some (.null, rest)
  | 't' :: 'r' :: 'u' :: 'e' :: rest => some (.bool true, rest)
  | 'f' :: 'a' :: 'l' :: 's' :: 'e' :: rest => some (.bool false, rest)
  | _ => none

/-- Reads at least one item and at most `count`, with commas between them, up to the closing
bracket. -/
def items? {α : Type} (item? : List Char → Option (α × List Char)) (close : Char) :
    Nat → List Char → Option (List α × List Char)
  | 0, _ => none
  | count + 1, cs => do
    let (item, cs) ← item? cs
    match skipBlanks cs with
    | [] => none
    | c :: cs =>
      if c = close then pure ([item], cs)
      else if c = ',' then
        let (items, rest) ← items? item? close count cs
        pure (item :: items, rest)
      else none

/-- Reads what follows an opening bracket. There are no more items than characters. -/
def bracketed? {α : Type} (item? : List Char → Option (α × List Char)) (close : Char)
    (cs : List Char) : Option (List α × List Char) :=
  match skipBlanks cs with
  | [] => none
  | c :: rest =>
    if c = close then some ([], rest) else items? item? close cs.length (c :: rest)

def field? (value? : List Char → Option (Json × List Char)) (cs : List Char) :
    Option ((String × Json) × List Char) :=
  match skipBlanks cs with
  | '"' :: cs => do
    let (name, cs) ← string? cs
    match skipBlanks cs with
    | ':' :: cs =>
      let (value, rest) ← value? cs
      pure ((name, value), rest)
    | _ => none
  | _ => none

/-- Of the fields with one name, the last. -/
def lastOfEach (fields : List (String × Json)) : List (String × Json) :=
  fields.foldr (fun field later =>
    if later.any fun other => other.1 == field.1 then later else field :: later) []

/-- Reads a string, a word or a number. -/
def scalar? : List Char → Option (Json × List Char)
  | '"' :: cs => (string? cs).map fun (s, rest) => (.string s, rest)
  | cs => (word? cs).or (Number.read? cs)

/-- Reads a value whose arrays and objects are nested at most `depth` deep, and returns what follows
it. -/
def value? : Nat → List Char → Option (Json × List Char)
  | 0, cs => scalar? (skipBlanks cs)
  | depth + 1, cs =>
    match skipBlanks cs with
    | '[' :: cs =>
      (bracketed? (value? depth) ']' cs).map fun (items, rest) => (.array items, rest)
    | '\x7b' :: cs =>
      (bracketed? (field? (value? depth)) '\x7d' cs).map fun (fields, rest) =>
        (.object (lastOfEach fields), rest)
    | cs => scalar? cs

end Text

def text (json : Json) : String := String.ofList (Text.chars json)

def ofText? (s : String) : Option Json :=
  (Text.value? 127 s.toList).bind fun (json, rest) =>
    if (Text.skipBlanks rest).isEmpty then some json else none

end Stablecoin.Json
