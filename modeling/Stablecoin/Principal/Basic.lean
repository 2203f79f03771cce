/-!
# Principals

A principal identifies a user by at most 29 bytes.
-/
namespace Stablecoin

structure Principal where
  bytes : List UInt8
  length_le : bytes.length ≤ 29 := by decide
  deriving DecidableEq, Repr

namespace Principal

/-- The principal with these bytes, unless there are too many. -/
def ofBytes? (bytes : List UInt8) : Option Principal :=
  if h : bytes.length ≤ 29 then some ⟨bytes, h⟩ else none

/-- Principals are ordered by their bytes. -/
instance : Ord Principal := ⟨compareOn bytes⟩

instance : Std.TransOrd Principal := inferInstanceAs (Std.TransCmp (compareOn bytes))

instance : Std.LawfulEqOrd Principal where
  eq_of_compare {a b} same := by
    cases a; cases b
    simp only [mk.injEq]
    exact Std.LawfulEqOrd.eq_of_compare same

theorem ofBytes?_eq_some {bytes : List UInt8} {p : Principal} :
    ofBytes? bytes = some p ↔ p.bytes = bytes := by
  unfold ofBytes?
  constructor
  · intro returned
    split at returned <;> cases returned
    rfl
  · rintro rfl
    simp [p.length_le]

end Principal

end Stablecoin
