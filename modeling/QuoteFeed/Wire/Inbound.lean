import QuoteFeed.Json.Reader
import QuoteFeed.Market.Basic
import QuoteFeed.Quote.Average
import QuoteFeed.Text.Blank

/-!
# Events from the exchange

A frame from the exchange is a JSON object whose member `type` says what it is.  `Inbound.decode`
reads a ticker, an order book or the answer to a ping; members that a type does not have are
passed over.  The errors say why a frame is none of these.
-/

namespace QuoteFeed

/-- An event from the exchange.  Its time counts milliseconds from the epoch. -/
inductive Inbound where
  | ticker (id : MarketId) (ts : Option Int) (buy sell : Decimal)
  | orderBook (id : MarketId) (ts : Option Int) (asks bids : List Level)
  | pong (ts : Option Int)
  deriving DecidableEq

/-- Why a frame is no event. -/
inductive FrameError where
  /-- The frame is no JSON text, or an event lacks what its type requires. -/
  | json
  /-- The frame does not start as an object; the text is its beginning. -/
  | notObject (start : String)
  /-- The object has no type. -/
  | untyped
  /-- The type is none that is known. -/
  | unknownType (kind : String)
  deriving DecidableEq

/-- The text of an error. -/
def FrameError.message : FrameError → String
  | .json => "JSON codec error"
  | .notObject start => "invalid message format: expected JSON object, got: " ++ start
  | .untyped => "invalid message format: missing \"type\" field"
  | .unknownType kind => "unknown message type: " ++ kind

namespace Inbound

/-- The number of characters of a frame that an error repeats. -/
def previewLength : Nat := 50

/-- A level as an array of its price and its size. -/
def level? : Json.Value → Option Level
  | .array [price, size] => do
    return ⟨← Decimal.ofJson? price, ← Decimal.ofJson? size⟩
  | _ => none

/-- The levels of a side, which may be absent. -/
def side? : Option Json.Value → Option (List Level) :=
  Json.default? [] (Json.Value.list? level?)

/-- The time of an event, which may be absent. -/
def time? : Option Json.Value → Option (Option Int) :=
  Json.default? none (Json.Value.nullable? Json.Value.signed?)

/-- The best prices of a ticker: what a buyer pays and what a seller receives. -/
def prices? (v : Json.Value) : Option (Decimal × Decimal) := do
  match ← v.fields? ["buy", "sell"] with
  | [buy, sell] =>
    return (← Json.required? Decimal.ofJson? buy, ← Json.required? Decimal.ofJson? sell)
  | _ => none

/-- The two sides of a book: asks and bids. -/
def sides? (v : Json.Value) : Option (List Level × List Level) := do
  match ← v.fields? ["asks", "bids"] with
  | [asks, bids] => return (← side? asks, ← side? bids)
  | _ => none

/-- Reads a ticker. -/
def ticker? (v : Json.Value) : Option Inbound := do
  match ← v.fields? ["id", "ts", "data"] with
  | [id, ts, data] =>
    let id ← Json.required? Json.Value.text? id
    let ts ← time? ts
    let (buy, sell) ← Json.required? prices? data
    return .ticker ⟨id⟩ ts buy sell
  | _ => none

/-- Reads an order book, whose sides may be absent. -/
def orderBook? (v : Json.Value) : Option Inbound := do
  match ← v.fields? ["id", "ts", "data"] with
  | [id, ts, data] =>
    let id ← Json.required? Json.Value.text? id
    let ts ← time? ts
    let (asks, bids) ← Json.default? ([], []) sides? data
    return .orderBook ⟨id⟩ ts asks bids
  | _ => none

/-- Reads the answer to a ping. -/
def pong? (v : Json.Value) : Option Inbound := do
  match ← v.fields? ["ts"] with
  | [ts] => return .pong (← time? ts)
  | _ => none

/-- The type of an object: `none` if it is no text, and absent if it is not given. -/
def kind? (v : Json.Value) : Option (Option String) := do
  match ← v.fields? ["type"] with
  | [kind] => Json.default? none (Json.Value.nullable? Json.Value.text?) kind
  | _ => none

/-- Reads an event of the given type. -/
def ofKind (kind : String) (v : Json.Value) : Except FrameError Inbound :=
  if kind = "ticker" then (ticker? v).elim (.error .json) .ok
  else if kind = "orderbook" then (orderBook? v).elim (.error .json) .ok
  else if kind = "pong" then (pong? v).elim (.error .json) .ok
  else .error (.unknownType kind)

/-- Reads an event from a frame without blanks around it. -/
def decodeChars (s : List Char) : Except FrameError Inbound :=
  if s.head? ≠ some '{' then
    .error (.notObject (String.ofList (s.take previewLength)))
  else
    match Json.read? s with
    | none => .error .json
    | some v =>
      match kind? v with
      | none => .error .json
      | some none => .error .untyped
      | some (some kind) => ofKind kind v

/-- Reads an event from a frame. -/
def decode (text : String) : Except FrameError Inbound :=
  decodeChars (Text.trimChars text.toList)

end Inbound

end QuoteFeed
