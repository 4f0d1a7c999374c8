import QuoteFeed.Market.Basic
import QuoteFeed.Time.Timestamp

/-!
# Quotes

The latest bid and ask of a market, with the time the exchange reports and the time of arrival.
-/

namespace QuoteFeed

open Time (Timestamp)

/-- The latest bid and ask of a market. -/
structure Quote where
  market : MarketId
  bid : Decimal
  ask : Decimal
  sourceTime : Timestamp
  ingestedAt : Timestamp
  deriving DecidableEq

/-- The timestamp that a JSON value spells. -/
def Time.Timestamp.ofJson? (v : Json.Value) : Option Timestamp := do
  Timestamp.parse? (← v.text?).toList

/-- A timestamp as a JSON value. -/
def Time.Timestamp.toJson (t : Timestamp) : Json.Value :=
  .text t.text

namespace Quote

/-- The names of the fields of a quote. -/
def fieldNames : List String :=
  ["market_id", "bid", "ask", "source_timestamp", "ingested_at"]

/-- A quote as a JSON object. -/
def toJson (q : Quote) : Json.Value :=
  .record [("market_id", .text q.market.name), ("bid", q.bid.toJson), ("ask", q.ask.toJson),
    ("source_timestamp", q.sourceTime.toJson), ("ingested_at", q.ingestedAt.toJson)]

/-- The quote that a JSON value describes; every field is required. -/
def ofJson? (v : Json.Value) : Option Quote := do
  match ← v.fields? fieldNames with
  | [market, bid, ask, sourceTime, ingestedAt] =>
    return {
      market := ⟨← Json.required? Json.Value.text? market⟩
      bid := ← Json.required? Decimal.ofJson? bid
      ask := ← Json.required? Decimal.ofJson? ask
      sourceTime := ← Json.required? Timestamp.ofJson? sourceTime
      ingestedAt := ← Json.required? Timestamp.ofJson? ingestedAt }
  | _ => none

end Quote

end QuoteFeed
