import QuoteFeed.Cache
import QuoteFeed.Catalog
import QuoteFeed.Quote.Basic
import QuoteFeed.Report.Basic
import QuoteFeed.Settings

/-!
# The quote desk

The desk turns frames from the exchange into quotes.  It holds the catalog that says which markets
there are, the cache of quotes, the counters of the keepalive and the report.

A ticker gives a quote as it stands, an order book one from the averages of its sides.  What gives
no quote is dropped, for the first of these reasons: it is no event, its market is not in the
catalog, or its book has a side without a price.
-/

namespace QuoteFeed

open Time (Timestamp)

/-- What surrounds the service: its settings, the universal time at each instant, and the seconds
for which the process is up by then, on a clock that is not the service's own. -/
structure Environment where
  settings : Settings
  wall : Nat → Timestamp
  uptime : Nat → Nat

/-- Counters of pings and their answers. -/
structure Keepalive where
  pings : Nat
  acks : Nat
  lastPing : Option Timestamp
  lastAck : Option Timestamp
  deriving DecidableEq

/-- No ping was sent. -/
def Keepalive.zero : Keepalive := ⟨0, 0, none, none⟩

/-- The desk at an instant. -/
structure Desk where
  now : Nat
  catalog : Catalog
  cache : Cache MarketId Quote
  keepalive : Keepalive
  report : Report

namespace Desk

/-- The desk at the start. -/
def initial : Desk := ⟨0, .empty, .empty, .zero, .empty⟩

/-- A note was made. -/
def note (d : Desk) (n : Note) : Desk :=
  { d with report := d.report.note n }

/-- The metrics changed. -/
def measure (d : Desk) (f : Metrics → Metrics) : Desk :=
  { d with report := d.report.measure f }

/-! ### Refreshing the catalog -/

/-- How a refresh of the catalog ended. -/
inductive Refreshed where
  /-- These are the markets. -/
  | markets (ms : List Market)
  /-- The fetch failed, and the snapshot stays. -/
  | failed (e : FetchError)
  /-- The lifetime of the snapshot leads beyond the clock, and the old snapshot stays. -/
  | overflow

/-- Claims the refresh.  It is refused while another one is under way. -/
def beginRefresh (d : Desk) : Bool × Desk :=
  if d.catalog.refreshing then
    (false, d.note .refreshSkipped)
  else
    (true, { d with catalog := { d.catalog with refreshing := true } })

/-- Gives the refresh up. -/
def releaseRefresh (d : Desk) : Desk :=
  { d with catalog := { d.catalog with refreshing := false } }

/-- Ends the refresh with what was fetched. -/
def endRefresh (env : Environment) (d : Desk) :
    Except FetchError (List Market) → Refreshed × Desk
  | .error e =>
    (.failed e,
      (d.releaseRefresh.measure (·.countRefresh false)).note
        (.refreshFailed e (Duration.wholeSeconds env.settings.catalog.retry)))
  | .ok ms =>
    match Clock.after? d.now env.settings.catalog.lifetime with
    | none => (.overflow, d.releaseRefresh)
    | some expiresAt =>
      let catalog : Catalog := ⟨some ⟨ms, env.wall d.now, expiresAt⟩, false⟩
      (.markets ms,
        ({ d with catalog }.measure fun m =>
          (m.countRefresh true).setCatalogMarkets ms.length).note (.refreshed ms.length))

/-! ### Frames -/

/-- What became of a frame. -/
inductive Outcome where
  /-- A quote of the market is in the cache. -/
  | quoted (id : MarketId)
  /-- A ping was answered. -/
  | acknowledged
  /-- The frame was dropped. -/
  | dropped (reason : DropReason)
  deriving DecidableEq

/-- The reason to drop a frame that is no event. -/
def reasonOf : FrameError → DropReason
  | .unknownType _ => .unsupportedType
  | _ => .malformed

/-- The time that an event reports, or the time of arrival if it reports none in range. -/
def sourceTime (arrival : Timestamp) (ts : Option Int) : Timestamp :=
  (ts.bind Timestamp.ofMillis?).getD arrival

/-- Puts a quote into the cache for its lifetime. -/
def store? (env : Environment) (d : Desk) (q : Quote) : Option (Outcome × Desk) :=
  (d.cache.set? d.now q.market q env.settings.quotes.ttl).map fun cache =>
    (.quoted q.market, { d with cache })

/-- Drops an event. -/
def drop (d : Desk) (n : Note) (reason : DropReason) : Outcome × Desk :=
  (.dropped reason, (d.note n).measure (·.countDropped reason))

/-- A quote that arrives now. -/
def arriving (env : Environment) (d : Desk) (id : MarketId) (ts : Option Int) (bid ask : Decimal) :
    Quote :=
  let arrival := env.wall d.now
  ⟨id, bid, ask, sourceTime arrival ts, arrival⟩

/-- Takes the prices of a market, if there are any. -/
def take? (env : Environment) (d : Desk) (id : MarketId) (ts : Option Int)
    (prices : Option (Decimal × Decimal)) : Option (Outcome × Desk) :=
  if (d.catalog.find? d.now id).isNone then
    some (d.drop (.unknownMarket id) .unknownMarket)
  else
    match prices with
    | none => some (d.drop (.emptyBook id) .emptyBook)
    | some (bid, ask) => d.store? env (d.arriving env id ts bid ask)

/-- The bid and the ask of a book. -/
def bookPrices? (asks bids : List Level) : Option (Decimal × Decimal) := do
  return (← averagePrice? bids, ← averagePrice? asks)

/-- Counts the answer to a ping. -/
def acknowledge (env : Environment) (d : Desk) : Outcome × Desk :=
  let k := d.keepalive
  let keepalive : Keepalive := { k with acks := k.acks + 1, lastAck := some (env.wall d.now) }
  (.acknowledged,
    ({ d with keepalive }.measure Metrics.countAck).note (.ackReceived keepalive.acks))

/-- The type of an event. -/
def eventType : Inbound → EventType
  | .ticker .. => .ticker
  | .orderBook .. => .orderBook
  | .pong .. => .pong

/-- Takes an event.  The bid of a ticker is what a seller receives, its ask what a buyer pays. -/
def takeEvent? (env : Environment) (d : Desk) : Inbound → Option (Outcome × Desk)
  | .ticker id ts buy sell => d.take? env id ts (some (sell, buy))
  | .orderBook id ts asks bids => d.take? env id ts (bookPrices? asks bids)
  | .pong _ => some (d.acknowledge env)

/-- Takes a frame, unless the lifetime of its quote leads beyond the clock. -/
def process? (env : Environment) (d : Desk) (text : String) : Option (Outcome × Desk) :=
  match Inbound.decode text with
  | .error e =>
    some ((d.measure (·.countReceived .other)).drop (.frameDropped e (reasonOf e).name) (reasonOf e))
  | .ok event =>
    (d.takeEvent? env event).map fun (outcome, d) =>
      (outcome, d.measure fun m =>
        (m.countReceived (eventType event)).countProcessed (eventType event))

/-! ### Descriptions -/

/-- The fraction digits of `n` thousandth parts and so on, of `width` digits, without trailing
zeros. -/
def fractionText (width n : Nat) : List Char :=
  let ds := ((Numeral.padded width n).reverse.dropWhile (· = '0')).reverse
  if ds.isEmpty then [] else '.' :: ds

/-- A number of nanoseconds in the largest unit that it reaches. -/
def durationText (d : Nat) : String :=
  let inUnit (unit width : Nat) (name : String) : String :=
    String.ofList (Numeral.ofNat (d / unit) ++ fractionText width (d % unit)) ++ name
  if d ≥ 1000000000 then inUnit 1000000000 9 "s"
  else if d ≥ 1000000 then inUnit 1000000 6 "ms"
  else if d ≥ 1000 then inUnit 1000 3 "µs"
  else String.ofList (Numeral.ofNat d) ++ "ns"

/-- A description of the desk. -/
def describe (env : Environment) : String :=
  "EventProcessor \x7b quote_ttl: " ++ durationText env.settings.quotes.ttl ++ ", .. \x7d"

end Desk

end QuoteFeed
