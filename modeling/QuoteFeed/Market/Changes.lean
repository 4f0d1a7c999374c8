import QuoteFeed.Market.IdSet

/-!
# Changes of a subscribed set

The difference between the markets that are wanted and those that are subscribed, and the calls
that carry it out: removals first, then additions, each in ascending order.
-/

namespace QuoteFeed

/-- The markets to subscribe and to unsubscribe. -/
structure Changes where
  subscribe : IdSet
  unsubscribe : IdSet
  deriving DecidableEq

/-- One call on a subscribed set. -/
inductive Call where
  | subscribe (id : MarketId)
  | unsubscribe (id : MarketId)
  deriving DecidableEq

namespace Changes

/-- What leads from the subscribed set to the wanted set. -/
def between (wanted subscribed : IdSet) : Changes :=
  ⟨wanted.diff subscribed, subscribed.diff wanted⟩

/-- The number of changes. -/
def size (c : Changes) : Nat := c.subscribe.size + c.unsubscribe.size

/-- Nothing changes. -/
def isEmpty (c : Changes) : Bool := c.subscribe.isEmpty && c.unsubscribe.isEmpty

/-- The calls that carry out the changes. -/
def calls (c : Changes) : List Call :=
  c.unsubscribe.ids.map .unsubscribe ++ c.subscribe.ids.map .subscribe

end Changes

/-- The subscribed set after a call. -/
def IdSet.apply (s : IdSet) : Call → IdSet
  | .subscribe id => s.insert id
  | .unsubscribe id => s.erase id

end QuoteFeed
