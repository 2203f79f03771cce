import Stablecoin.Rejection
import Stablecoin.Decimal.Text

/-!
# Prices

The price of each denomination's smallest unit, as last reported.
-/
namespace Stablecoin

abbrev PriceTable := Table Denom Decimal

namespace PriceTable

def rate (t : PriceTable) (denom : Denom) : Except PriceError Decimal :=
  match t.get? denom with
  | some rate => pure rate
  | none => throw ⟨denom, "no exchange rate"⟩

/-- The reported price, refused when there is none. -/
def quoted (t : PriceTable) (denom : Denom) : Result Decimal :=
  match t.rate denom with
  | .ok rate => pure rate
  | .error e => reject (.price e)

/-- The reported price, refused unless it is positive. -/
def price (t : PriceTable) (denom : Denom) : Result Decimal := do
  let rate ← t.quoted denom
  require (0 < rate) (.price ⟨denom, "non-positive exchange rate " ++ rate.text⟩)
  pure rate

end PriceTable

end Stablecoin
