import QuoteFeed.Desk
import QuoteFeed.Proofs.Catalog

/-!
# The quote of a frame

Whether the desk accepts a frame, and which quote it gives, is a matter of the frame, the catalog
and the time (`Desk.quoteOf?`).  The cache stores this quote for its lifetime and changes in no
other way (`Desk.cache_process?`).
-/

namespace QuoteFeed.Desk

open Time (Timestamp)

/-- A market of this name is live. -/
def Lists (d : Desk) (id : MarketId) : Prop :=
  ∃ m ∈ d.catalog.current d.now, m.id = id

instance (d : Desk) (id : MarketId) : Decidable (d.Lists id) :=
  inferInstanceAs (Decidable (∃ m ∈ _, _))

variable (env : Environment) (d : Desk)

/-- The quote of a bid and an ask that arrive now, if their market is live.  Without a time in range
of its own the quote is of the time of its arrival. -/
def quote? (id : MarketId) (ts : Option Int) (bid ask : Decimal) : Option Quote :=
  let arrival := env.wall d.now
  if d.Lists id then some ⟨id, bid, ask, (ts.bind Timestamp.ofMillis?).getD arrival, arrival⟩
  else none

/-- The quote that an event gives.  The bid of a ticker is what a seller receives and its ask what a
buyer pays.  A book gives the averages of its sides, if both have one. -/
def quoteIn? : Inbound → Option Quote
  | .ticker id ts buy sell => d.quote? env id ts sell buy
  | .orderBook id ts asks bids =>
    match averagePrice? bids, averagePrice? asks with
    | some bid, some ask => d.quote? env id ts bid ask
    | _, _ => none
  | .pong _ => none

/-- The quote that a frame gives, if it is an event. -/
def quoteOf? (text : String) : Option Quote :=
  match Inbound.decode text with
  | .ok event => d.quoteIn? env event
  | .error _ => none

/-- The cache with a quote stored for the lifetime of quotes, if there is one.  Nothing is left if
that leads beyond the clock. -/
def cacheWith? : Option Quote → Option (Cache MarketId Quote)
  | none => some d.cache
  | some q => (Clock.after? d.now env.settings.quotes.ttl).map (d.cache.put q.market q)

variable {env d}

theorem isNone_find? {id : MarketId} :
  (d.catalog.find? d.now id).isNone ↔ ¬ d.Lists id
  := by
  rw [Lists, ← Catalog.isSome_find?, ← Option.not_isSome, Bool.not_eq_true', Bool.not_eq_true]

/-- The prices of a market are stored if the market is live. -/
theorem cache_take? (id : MarketId) (ts : Option Int) (bid ask : Decimal) :
  (d.take? env id ts (some (bid, ask))).map (·.2.cache) =
    d.cacheWith? env (d.quote? env id ts bid ask)
  := by
  rw [take?.eq_def, quote?]
  by_cases h : d.Lists id
  · rw [if_neg (fun hn => isNone_find?.1 hn h), if_pos h]
    dsimp only
    rw [store?, Option.map_map, Cache.set?, Option.map_map]
    rfl
  · rw [if_pos (isNone_find?.2 h), if_neg h]
    rfl

/-- Without prices nothing is stored. -/
theorem cache_take?_none (id : MarketId) (ts : Option Int) :
  (d.take? env id ts none).map (·.2.cache) = some d.cache
  := by
  rw [take?.eq_def]
  split
  · rfl
  · rfl

theorem cache_takeEvent? (event : Inbound) :
  (d.takeEvent? env event).map (·.2.cache) = d.cacheWith? env (d.quoteIn? env event)
  := by
  cases event with
  | ticker id ts buy sell => apply cache_take?
  | orderBook id ts asks bids =>
    rw [takeEvent?, bookPrices?, quoteIn?]
    cases averagePrice? bids with
    | none => apply cache_take?_none
    | some bid =>
      cases averagePrice? asks with
      | none => apply cache_take?_none
      | some ask => apply cache_take?
  | pong ts => rfl

/-- The quote of a frame is stored for its lifetime, and the cache changes in no other way. -/
theorem cache_process? (text : String) :
  (d.process? env text).map (·.2.cache) = d.cacheWith? env (d.quoteOf? env text)
  := by
  rw [process?, quoteOf?]
  cases Inbound.decode text with
  | error e => rfl
  | ok event =>
    dsimp only
    rw [← cache_takeEvent?, Option.map_map]
    rfl

end QuoteFeed.Desk
