import QuoteFeed.Clock
import QuoteFeed.Report.Note
import QuoteFeed.Time.Timestamp

/-!
# The market catalog

The markets of the last successful fetch, as long as they live.  A name is looked up by an index
that keeps the last market of each name.  A pair of currencies is looked up in listing order, and
a market that trades is preferred.
-/

namespace QuoteFeed

open Time (Timestamp)

/-- The markets of a fetch. -/
structure Snapshot where
  markets : List Market
  refreshedAt : Timestamp
  expiresAt : Nat

namespace Snapshot

/-- The snapshot is not expired. -/
def isLive (s : Snapshot) (now : Nat) : Bool :=
  now < s.expiresAt

end Snapshot

/-- The index of the last market of a name. -/
def lastIndex? (id : MarketId) : List Market → Option Nat
  | [] => none
  | m :: ms =>
    match lastIndex? id ms with
    | some i => some (i + 1)
    | none => if m.id = id then some 0 else none

/-- The markets that price one currency in another. -/
def pricing (base quote : String) (ms : List Market) : List Market :=
  ms.filter fun m => m.prices base quote

/-- The market that prices one currency in another: the first that trades, or else the first. -/
def pairIn? (base quote : String) (ms : List Market) : Option Market :=
  ((pricing base quote ms).find? fun m => m.tradable).or (pricing base quote ms).head?

/-- The snapshot of the last successful fetch, and whether a refresh is under way. -/
structure Catalog where
  snapshot : Option Snapshot
  refreshing : Bool

namespace Catalog

/-- The catalog before its first refresh. -/
def empty : Catalog := ⟨none, false⟩

/-- The snapshot, if it is live. -/
def live? (c : Catalog) (now : Nat) : Option Snapshot :=
  c.snapshot.filter fun s => s.isLive now

/-- The live markets. -/
def current (c : Catalog) (now : Nat) : List Market :=
  ((c.live? now).map (·.markets)).getD []

/-- The number of live markets. -/
def size (c : Catalog) (now : Nat) : Nat :=
  (c.current now).length

/-- No market is live. -/
def isEmpty (c : Catalog) (now : Nat) : Bool :=
  c.size now = 0

/-- The live market of a name. -/
def find? (c : Catalog) (now : Nat) (id : MarketId) : Option Market := do
  let s ← c.live? now
  let i ← lastIndex? id s.markets
  s.markets[i]?

/-- The live market that prices one currency in another. -/
def pair? (c : Catalog) (now : Nat) (base quote : String) : Option Market :=
  pairIn? base quote (c.current now)

/-- When the catalog was last refreshed. -/
def lastRefreshedAt (c : Catalog) : Option Timestamp :=
  c.snapshot.map (·.refreshedAt)

/-- A description of the catalog. -/
def describe (c : Catalog) (now : Nat) : String :=
  "MarketCatalog \x7b markets: " ++ Numeral.text (c.size now) ++ ", refreshing: " ++
    toString c.refreshing ++ ", .. \x7d"

end Catalog

end QuoteFeed
