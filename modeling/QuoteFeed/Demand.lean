import QuoteFeed.Clock
import QuoteFeed.Market.IdSet

/-!
# Demand

When each market was last asked for.  A market is in demand for a window after its last request;
looking up the markets in demand forgets the others.
-/

namespace QuoteFeed

/-- The last request of a market. -/
structure Demand.Request where
  market : MarketId
  time : Nat
  deriving DecidableEq

/-- The last requests, at most one per market. -/
structure Demand where
  window : Nat
  requests : List Demand.Request

namespace Demand

/-- No market was asked for yet. -/
def empty (window : Nat) : Demand := ⟨window, []⟩

/-- The number of markets remembered. -/
def size (d : Demand) : Nat := d.requests.length

/-- A request is within the window.  One from the future is. -/
def isRecent (window : Nat) (now : Nat) (r : Request) : Bool :=
  now - r.time ≤ window

/-- A market was asked for. -/
def request (d : Demand) (now : Nat) (market : MarketId) : Demand :=
  { d with requests := ⟨market, now⟩ :: d.requests.filter fun r => r.market ≠ market }

/-- Markets were asked for. -/
def record (d : Demand) (now : Nat) (markets : List MarketId) : Demand :=
  markets.foldl (request · now) d

/-- The requests within the window. -/
def prune (d : Demand) (now : Nat) : Demand :=
  { d with requests := d.requests.filter (isRecent d.window now) }

/-- The markets remembered. -/
def markets (d : Demand) : IdSet :=
  .ofList (d.requests.map (·.market))

/-- The markets in demand. -/
def active (d : Demand) (now : Nat) : IdSet :=
  (d.prune now).markets

end Demand

end QuoteFeed
