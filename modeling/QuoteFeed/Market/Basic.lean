import QuoteFeed.Decimal.Json
import QuoteFeed.Text.Letter

/-!
# Markets

A market prices a base currency in a quote currency on the exchange.  Its trading rules follow
from it: the number of significant price digits from the price scale, and the least order size
from the least movement, as a whole number of units of the base currency.
-/

namespace QuoteFeed

/-- The exchange's name for a market. -/
structure MarketId where
  name : String
  deriving DecidableEq, Inhabited

/-- The order of the names, character by character. -/
instance : LT MarketId := ⟨fun a b => a.name < b.name⟩

instance (a b : MarketId) : Decidable (a < b) :=
  inferInstanceAs (Decidable (a.name < b.name))

/-- A market listed by the exchange. -/
structure Market where
  id : MarketId
  base : String
  quote : String
  priceScale : Nat
  minMovement : Decimal
  tradable : Bool
  deriving DecidableEq

/-- The rules derived from a market. -/
structure TradingRules where
  minSize : Option Nat
  priceDigits : Nat
  deriving DecidableEq

namespace Market

/-- The market prices `base` in `quote`, up to the case of basic letters. -/
def prices (m : Market) (base quote : String) : Bool :=
  Text.sameLetters m.base base && Text.sameLetters m.quote quote

/-! ### Trading rules -/

/-- The next power of ten, held at the greatest number of 64 bits. -/
def nextBound (bound : Nat) : Nat :=
  min (bound * 10) Numeral.max64

/-- Counts the powers of ten from `bound` up to the first that is not below `scale`.  A scale
of 64 bits is reached after twenty of them. -/
def countDigits (scale : Nat) : (fuel digits bound : Nat) → Nat
  | 0, digits, _ => digits
  | fuel + 1, digits, bound =>
    if bound < scale then countDigits scale fuel (digits + 1) (nextBound bound) else digits

/-- The number of digits of a price scale: the least `d` with `scale ≤ 10 ^ d`. -/
def significantDigits (scale : Nat) : Nat :=
  countDigits scale 20 0 1

/-- The least order size in units of `10 ^ -precision` of the base currency, rounded up.  It is
absent if the unit does not fit 64 bits, the product overflows, or the size is negative or does
not fit 64 bits. -/
def minSize? (m : Market) (precision : Nat) : Option Nat := do
  if Nat.pow 10 (min precision 20) > Numeral.max64 then
    none
  else
    let factor ← Decimal.ofWhole? false (Nat.pow 10 precision)
    let product ← m.minMovement.mul? factor
    let (negative, size) := product.ceil
    if negative ∨ size > Numeral.max64 then none else some size

/-- The rules of a market at the precision of its base currency. -/
def rules (m : Market) (precision : Nat) : TradingRules :=
  { minSize := m.minSize? precision
    priceDigits := significantDigits m.priceScale }

/-! ### JSON -/

/-- The names of the fields of a market. -/
def fieldNames : List String :=
  ["id", "base_currency", "quote_currency", "price_scale", "min_movement", "tradable"]

/-- The fields of a market as members of an object. -/
def members (m : Market) : List (String × Json.Value) :=
  [("id", .text m.id.name), ("base_currency", .text m.base), ("quote_currency", .text m.quote),
   ("price_scale", .nat m.priceScale), ("min_movement", m.minMovement.toJson),
   ("tradable", .bool m.tradable)]

/-- A market as a JSON object. -/
def toJson (m : Market) : Json.Value :=
  .record m.members

/-- The market that a JSON value describes; every field is required. -/
def ofJson? (v : Json.Value) : Option Market := do
  match ← v.fields? fieldNames with
  | [id, base, quote, priceScale, minMovement, tradable] =>
    return {
      id := ⟨← Json.required? Json.Value.text? id⟩
      base := ← Json.required? Json.Value.text? base
      quote := ← Json.required? Json.Value.text? quote
      priceScale := ← Json.required? Json.Value.unsigned? priceScale
      minMovement := ← Json.required? Decimal.ofJson? minMovement
      tradable := ← Json.required? Json.Value.bool? tradable }
  | _ => none

end Market

/-- Trading rules as a JSON object. -/
def TradingRules.toJson (r : TradingRules) : Json.Value :=
  .record [("min_size", .optional .nat r.minSize), ("price_significant_digits", .nat r.priceDigits)]

end QuoteFeed
