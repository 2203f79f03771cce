/-!
# Blocks

Time passes in blocks. A height counts the blocks up to one, in 64 bits.
-/
namespace Stablecoin

/-- The height of a block, or a number of blocks. -/
abbrev Height := UInt64

/-- How many blocks `later` comes after `earlier`, none if it comes before. -/
def blocksBetween (earlier later : Height) : Nat := later.toNat - earlier.toNat

end Stablecoin
