import Stablecoin.Principal.Basic

/-!
# Principal text

The text of a principal is the base-32 form of its bytes after their CRC-32 checksum, in lower case
and in groups of five characters joined by dashes. Reading accepts the text of a principal in
either letter case and nothing else.
-/
namespace Stablecoin

/-- One bit of the CRC-32 division by the reflected polynomial `0xEDB88320`. -/
def crcShift (crc : UInt32) : UInt32 :=
  if crc &&& 1 = 1 then (crc >>> 1) ^^^ 0xEDB88320 else crc >>> 1

/-- One byte of the CRC-32 division. -/
def crcByte (crc : UInt32) (byte : UInt8) : UInt32 :=
  Nat.repeat crcShift 8 (crc ^^^ byte.toUInt32)

def crc32 (bytes : List UInt8) : UInt32 := bytes.foldl crcByte 0xFFFFFFFF ^^^ 0xFFFFFFFF

/-- The checksum's bytes, the most significant first. -/
def crc32Bytes (bytes : List UInt8) : List UInt8 :=
  let crc := crc32 bytes
  [(crc >>> 24).toUInt8, (crc >>> 16).toUInt8, (crc >>> 8).toUInt8, crc.toUInt8]

namespace Base32

def symbol (group : Nat) : Char := Char.ofNat (if group < 26 then 97 + group else 24 + group)

def group? (c : Char) : Option Nat :=
  if 'a' ≤ c ∧ c ≤ 'z' then some (c.toNat - 97)
  else if '2' ≤ c ∧ c ≤ '7' then some (c.toNat - 24)
  else none

/-- The `width` bits of a number, the most significant first. -/
def bits (width n : Nat) : List Bool := (List.range width).reverse.map n.testBit

/-- The number with these bits, the most significant first. -/
def ofBits (bs : List Bool) : Nat := bs.foldl (fun n b => 2 * n + b.toNat) 0

/-- The groups of a bit string, the last one filled up with zeros. -/
def groups : List Bool → List (List Bool)
  | a :: b :: c :: d :: e :: rest => [a, b, c, d, e] :: groups rest
  | [] => []
  | bs => [bs ++ List.replicate (5 - bs.length) false]

/-- The whole bytes of a bit string. -/
def wholeBytes : List Bool → List (List Bool)
  | a :: b :: c :: d :: e :: f :: g :: h :: rest => [a, b, c, d, e, f, g, h] :: wholeBytes rest
  | _ => []

/-- The base-32 form of bytes, unpadded and in lower case. -/
def encode (bytes : List UInt8) : List Char :=
  (groups (bytes.flatMap fun b => bits 8 b.toNat)).map (symbol ∘ ofBits)

/-- The whole bytes that a base-32 form holds. -/
def decode? (cs : List Char) : Option (List UInt8) := do
  let gs ← cs.mapM group?
  pure ((wholeBytes (gs.flatMap (bits 5))).map fun bs => UInt8.ofNat (ofBits bs))

end Base32

/-- A dash after every five characters but not at the end. -/
def dashed : List Char → List Char
  | a :: b :: c :: d :: e :: f :: rest => a :: b :: c :: d :: e :: '-' :: dashed (f :: rest)
  | cs => cs

namespace Principal

def chars (p : Principal) : List Char := dashed (Base32.encode (crc32Bytes p.bytes ++ p.bytes))

def text (p : Principal) : String := String.ofList p.chars

/-- Reads the characters of a principal's text: the checksum is dropped, and what is left has to
give the same text again. -/
def ofChars? (cs : List Char) : Option Principal := do
  let lower := cs.map Char.toLower
  let bytes ← Base32.decode? (lower.filter (· ≠ '-'))
  -- Wrong checksums, dashes and lengths all show in the text.
  let p ← ofBytes? (bytes.drop 4)
  if p.chars = lower then some p else none

def ofText? (s : String) : Option Principal := ofChars? s.toList

end Principal

end Stablecoin
