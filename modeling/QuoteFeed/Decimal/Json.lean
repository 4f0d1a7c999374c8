import QuoteFeed.Decimal.Text
import QuoteFeed.Json.Record
import QuoteFeed.Json.Writer

/-!
# Decimals in JSON

A decimal is written as a string.  It is read from a string of either form, from a whole number
exactly, and from any other number by way of the shortest numeral of its binary64 value.
-/

namespace QuoteFeed.Decimal

/-- A numeral in positional notation. -/
def positional (x : Binary64.Numeral10) : List Char :=
  let ds := Numeral.ofNat x.digits
  if x.exponent ≥ 0 then
    ds ++ List.replicate x.exponent.toNat '0'
  else
    let places := (-x.exponent).toNat
    let ds := List.replicate (places + 1 - ds.length) '0' ++ ds
    ds.take (ds.length - places) ++ '.' :: ds.drop (ds.length - places)

/-- The decimal that a JSON number stands for. -/
def ofNumber? (n : Json.Number) : Option Decimal :=
  match n.whole? with
  | some v => ofWhole? (v < 0) v.natAbs
  | none => do
    let f ← n.magnitude?
    parse? ((if n.negative then ['-'] else []) ++ positional f.shortest)

/-- The decimal that a JSON value stands for. -/
def ofJson? : Json.Value → Option Decimal
  | .string (some s) => ofText? s.toList
  | .number n => ofNumber? n
  | _ => none

/-- A decimal as a JSON value. -/
def toJson (d : Decimal) : Json.Value :=
  .text d.text

end QuoteFeed.Decimal
