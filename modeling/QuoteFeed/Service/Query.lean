import QuoteFeed.Service.Basic

/-!
# Queries

`Service.quotations` answers a query for the prices of some base currencies in a quote currency.
The markets it resolves are in demand from then on, and the stream is synchronised to all markets
in demand that are in the catalog.  `Service.releaseIdle` synchronises without new demand.
-/

namespace QuoteFeed

/-- The members of a list, each at its first occurrence. -/
def firstOccurrences : List MarketId → List MarketId
  | [] => []
  | a :: l => a :: (firstOccurrences l).filter (· ≠ a)

namespace Service

/-- The market that a base currency resolves to: one that trades. -/
def resolve? (s : Service) (quote base : String) : Option MarketId :=
  ((s.catalog.pair? s.now base quote).filter (·.tradable)).map (·.id)

/-- The markets that base currencies resolve to, each once. -/
def resolve (s : Service) (quote : String) (bases : List String) : List MarketId :=
  firstOccurrences (bases.filterMap (s.resolve? quote))

/-- The markets in demand that are in the catalog. -/
def wanted (s : Service) : IdSet :=
  (s.demand.active s.now).filter fun id => (s.catalog.find? s.now id).isSome

/-- Synchronises the stream to the markets in demand, after a request for some. -/
def syncDemand (env : Environment) (s : Service) (requested : List MarketId) : Changes × Service :=
  let s := { s with demand := (s.demand.record s.now requested).prune s.now }
  let (changes, stream) := s.toStream.sync env s.wanted
  (changes, { s with toStream := stream })

/-- The quotes at hand of some markets. -/
def quotesOf (s : Service) (ids : List MarketId) : List Quote :=
  ids.filterMap (s.cache.get? s.now)

/-- The quotes at hand for base currencies in a quote currency. -/
def quotations (env : Environment) (s : Service) (quote : String) (bases : List String) :
    List Quote × Service :=
  let requested := s.resolve quote bases
  let s :=
    if requested.isEmpty then s.note (.noMarkets quote bases.length)
    else (s.syncDemand env requested).2
  (s.quotesOf requested, s)

/-- Unsubscribes the markets out of demand. -/
def releaseIdle (env : Environment) (s : Service) : Changes × Service :=
  let (changes, s) := s.syncDemand env []
  (changes,
    if changes.unsubscribe.isEmpty then s else s.note (.released changes.unsubscribe.size))

/-- Makes the subscriptions equal to a wanted set. -/
def sync (env : Environment) (s : Service) (wanted : IdSet) : Changes × Service :=
  let (changes, stream) := s.toStream.sync env wanted
  (changes, { s with toStream := stream })

@[simp]
theorem pinger_syncDemand (env : Environment) (s : Service) (requested : List MarketId) :
  (s.syncDemand env requested).2.pinger = s.pinger
  := Stream.pinger_sync _ _ _

@[simp]
theorem pinger_releaseIdle (env : Environment) (s : Service) :
  (s.releaseIdle env).2.pinger = s.pinger
  := by
  unfold releaseIdle
  dsimp only
  split
  · exact pinger_syncDemand _ _ _
  · exact pinger_syncDemand _ _ _

end Service

end QuoteFeed
