import Stablecoin.Coin
import Stablecoin.Principal.Text
import Stablecoin.Table

/-!
# Ledger accounts

Balances belong to users and to modules, which are known by name.
-/
namespace Stablecoin

inductive Account where
  | user (owner : Principal)
  | module (name : String)
  deriving DecidableEq, Repr

namespace Account

/-- The text of a user is the principal's. -/
def text : Account → String
  | user owner => owner.text
  | module name => "module:" ++ name

/-- What accounts are ordered by: users before modules, users by their bytes, modules by name. -/
def orderKey : Account → Nat × List UInt8 × String
  | user owner => (0, owner.bytes, "")
  | module name => (1, [], name)

theorem orderKey_injective {a b : Account} (same : a.orderKey = b.orderKey) : a = b := by
  cases a with
  | user p => cases b with
    | user q =>
      cases p; cases q
      simpa [orderKey] using same
    | module n => simp [orderKey] at same
  | module m => cases b with
    | user q => simp [orderKey] at same
    | module n => simpa [orderKey] using same

instance : Ord Account := ⟨compareOn orderKey⟩

instance : Std.TransOrd Account := inferInstanceAs (Std.TransCmp (compareOn orderKey))

instance : Std.LawfulEqOrd Account where
  eq_of_compare {a b} same := by
    have keys : compare a.orderKey b.orderKey = .eq := same
    exact orderKey_injective (Std.LawfulEqOrd.eq_of_compare keys)

end Account

end Stablecoin
