import Stablecoin.Decimal.Text

/-!
# Candid bytes of a decimal

A decimal is sent as one Candid value of type text: the magic number, an empty table of types, one
argument of type text, and the text with its length in front.
-/
namespace Stablecoin

/-- A number in groups of seven bits, the least significant first, with the high bit set on all but
the last. -/
def leb128 (n : Nat) : List UInt8 :=
  if n < 128 then [UInt8.ofNat n] else UInt8.ofNat (128 + n % 128) :: leb128 (n / 128)

namespace Decimal

/-- The Candid message that holds a decimal. -/
def candidBytes (d : Decimal) : List UInt8 :=
  let text := d.text.toUTF8.toList
  [0x44, 0x49, 0x44, 0x4c, 0, 1, 0x71] ++ leb128 text.length ++ text

end Decimal

end Stablecoin
