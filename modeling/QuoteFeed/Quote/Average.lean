import QuoteFeed.Decimal.Arithmetic

/-!
# Prices of a book side

A side of an order book is a list of levels, each a price and a size.  Its price is the average
of all its prices, weighted by size, in decimal arithmetic: absent if the arithmetic overflows
or the side has no size.
-/

namespace QuoteFeed

/-- One level of an order book. -/
structure Level where
  price : Decimal
  size : Decimal
  deriving DecidableEq

/-- The sums over the levels of a side: of price times size, and of size. -/
structure Totals where
  notional : Decimal
  size : Decimal

namespace Totals

/-- The sums over no levels. -/
def zero : Totals := ⟨.zero, .zero⟩

/-- The sums with one more level. -/
def add? (t : Totals) (l : Level) : Option Totals := do
  let product ← l.price.mul? l.size
  let notional ← t.notional.add? product
  let size ← t.size.add? l.size
  return ⟨notional, size⟩

/-- The sums over a side. -/
def of? (levels : List Level) : Option Totals :=
  levels.foldlM add? zero

end Totals

/-- The price of a side, weighted by size. -/
def averagePrice? (levels : List Level) : Option Decimal := do
  let t ← Totals.of? levels
  if t.size.isPositive then t.notional.div? t.size else none

end QuoteFeed
