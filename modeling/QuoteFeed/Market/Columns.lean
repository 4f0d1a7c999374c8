import QuoteFeed.Market.Basic
import QuoteFeed.Text.Blank

/-!
# Market listings in columns

The exchange lists its markets in columns, one entry per market in each, zipped by index.  A
market is listed where the three text columns have an entry that is not blank; the other columns
may be short or have gaps, which stand for a market that is not tradable, a price scale of 1 and
a least movement of 0.
-/

namespace QuoteFeed

/-- A listing of markets in columns. -/
structure Columns where
  symbol : List (Option String)
  currency : List (Option String)
  baseCurrency : List (Option String)
  tradable : List (Option Bool)
  priceScale : List (Option Nat)
  minMovement : List (Option Decimal)

namespace Columns

/-- The entry of a column, `none` for a gap and beyond the end. -/
def entry {α : Type} (column : List (Option α)) (i : Nat) : Option α :=
  column[i]?.join

/-- The entry of a text column without the blanks around it, `none` if nothing is left. -/
def textEntry (column : List (Option String)) (i : Nat) : Option String :=
  ((entry column i).map Text.trim).filter fun s => !s.isEmpty

/-- The market at an index, if it is listed there. -/
def market? (c : Columns) (i : Nat) : Option Market := do
  let id ← textEntry c.symbol i
  let quote ← textEntry c.currency i
  let base ← textEntry c.baseCurrency i
  return {
    id := ⟨id⟩
    base
    quote
    priceScale := (entry c.priceScale i).getD 1
    minMovement := (entry c.minMovement i).getD .zero
    tradable := (entry c.tradable i).getD false }

/-- The markets listed, in the order of their indices. -/
def markets (c : Columns) : List Market :=
  (List.range c.symbol.length).filterMap c.market?

/-! ### JSON -/

/-- The names of the columns. -/
def columnNames : List String :=
  ["symbol", "currency", "base-currency", "is-tradable", "price-scale", "min-movement"]

/-- Reads a column, which may be absent. -/
def column? {α : Type} (read : Json.Value → Option α) :
    Option Json.Value → Option (List (Option α)) :=
  Json.default? [] (Json.Value.list? (Json.Value.nullable? read))

/-- The listing that a JSON value holds. -/
def ofJson? (v : Json.Value) : Option Columns := do
  match ← v.fields? columnNames with
  | [symbol, currency, baseCurrency, tradable, priceScale, minMovement] =>
    return {
      symbol := ← column? Json.Value.text? symbol
      currency := ← column? Json.Value.text? currency
      baseCurrency := ← column? Json.Value.text? baseCurrency
      tradable := ← column? Json.Value.bool? tradable
      priceScale := ← column? Json.Value.unsigned? priceScale
      minMovement := ← column? Decimal.ofJson? minMovement }
  | _ => none

end Columns

end QuoteFeed
