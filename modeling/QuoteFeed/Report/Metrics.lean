import QuoteFeed.Stream.State
import QuoteFeed.Wire.Outbound

/-!
# Metrics

The counters and gauges of the service.  Counters are kept per type of event, per reason of a
drop, per type of message and per outcome of a refresh.
-/

namespace QuoteFeed

/-- The types of inbound events. -/
inductive EventType where
  | ticker
  | orderBook
  | pong
  | other
  deriving DecidableEq

/-- Why an inbound frame gives no quote. -/
inductive DropReason where
  /-- No JSON text, or not what its type requires. -/
  | malformed
  /-- A type that is not known. -/
  | unsupportedType
  /-- A market that is not in the catalog. -/
  | unknownMarket
  /-- A side of a book that has no price. -/
  | emptyBook
  deriving DecidableEq

/-- The types of messages to the exchange. -/
inductive MessageType where
  | subscribe
  | unsubscribe
  | ping
  deriving DecidableEq

/-- The name of a type of event. -/
def EventType.name : EventType → String
  | .ticker => "ticker"
  | .orderBook => "orderbook"
  | .pong => "pong"
  | .other => "other"

/-- The name of a reason. -/
def DropReason.name : DropReason → String
  | .malformed => "malformed"
  | .unsupportedType => "unsupported_type"
  | .unknownMarket => "unknown_market"
  | .emptyBook => "empty_book"

/-- The name of a type of message. -/
def MessageType.name : MessageType → String
  | .subscribe => "subscribe"
  | .unsubscribe => "unsubscribe"
  | .ping => "ping"

/-- The type of a message. -/
def Outbound.messageType : Outbound → MessageType
  | .subscribe .. => .subscribe
  | .unsubscribe .. => .unsubscribe
  | .ping => .ping

/-- Counts per type of event. -/
structure EventCounts where
  ticker : Nat
  orderBook : Nat
  pong : Nat
  other : Nat
  deriving DecidableEq

namespace EventCounts

/-- No event was counted. -/
def zero : EventCounts := ⟨0, 0, 0, 0⟩

/-- The count of a type. -/
def get (c : EventCounts) : EventType → Nat
  | .ticker => c.ticker
  | .orderBook => c.orderBook
  | .pong => c.pong
  | .other => c.other

/-- One more of a type. -/
def bump (c : EventCounts) : EventType → EventCounts
  | .ticker => { c with ticker := c.ticker + 1 }
  | .orderBook => { c with orderBook := c.orderBook + 1 }
  | .pong => { c with pong := c.pong + 1 }
  | .other => { c with other := c.other + 1 }

theorem get_bump (c : EventCounts) (k j : EventType) :
  (c.bump k).get j = c.get j + if j = k then 1 else 0
  := by
  cases k <;> cases j <;> rfl

end EventCounts

/-- Counts per reason of a drop. -/
structure DropCounts where
  malformed : Nat
  unsupportedType : Nat
  unknownMarket : Nat
  emptyBook : Nat
  deriving DecidableEq

namespace DropCounts

/-- No drop was counted. -/
def zero : DropCounts := ⟨0, 0, 0, 0⟩

/-- The count of a reason. -/
def get (c : DropCounts) : DropReason → Nat
  | .malformed => c.malformed
  | .unsupportedType => c.unsupportedType
  | .unknownMarket => c.unknownMarket
  | .emptyBook => c.emptyBook

/-- One more for a reason. -/
def bump (c : DropCounts) : DropReason → DropCounts
  | .malformed => { c with malformed := c.malformed + 1 }
  | .unsupportedType => { c with unsupportedType := c.unsupportedType + 1 }
  | .unknownMarket => { c with unknownMarket := c.unknownMarket + 1 }
  | .emptyBook => { c with emptyBook := c.emptyBook + 1 }

theorem get_bump (c : DropCounts) (k j : DropReason) :
  (c.bump k).get j = c.get j + if j = k then 1 else 0
  := by
  cases k <;> cases j <;> rfl

end DropCounts

/-- Counts per type of message. -/
structure MessageCounts where
  subscribe : Nat
  unsubscribe : Nat
  ping : Nat
  deriving DecidableEq

namespace MessageCounts

/-- No message was counted. -/
def zero : MessageCounts := ⟨0, 0, 0⟩

/-- The count of a type. -/
def get (c : MessageCounts) : MessageType → Nat
  | .subscribe => c.subscribe
  | .unsubscribe => c.unsubscribe
  | .ping => c.ping

/-- One more of a type. -/
def bump (c : MessageCounts) : MessageType → MessageCounts
  | .subscribe => { c with subscribe := c.subscribe + 1 }
  | .unsubscribe => { c with unsubscribe := c.unsubscribe + 1 }
  | .ping => { c with ping := c.ping + 1 }

theorem get_bump (c : MessageCounts) (k j : MessageType) :
  (c.bump k).get j = c.get j + if j = k then 1 else 0
  := by
  cases k <;> cases j <;> rfl

end MessageCounts

/-- The counters and gauges of the service. -/
structure Metrics where
  received : EventCounts
  dropped : DropCounts
  processed : EventCounts
  sent : MessageCounts
  pings : Nat
  acks : Nat
  refreshes : Nat
  failedRefreshes : Nat
  catalogMarkets : Nat
  connectionState : Nat
  subscriptions : Nat
  deriving DecidableEq

namespace Metrics

/-- Nothing was counted or set. -/
def zero : Metrics :=
  { received := .zero
    dropped := .zero
    processed := .zero
    sent := .zero
    pings := 0
    acks := 0
    refreshes := 0
    failedRefreshes := 0
    catalogMarkets := 0
    connectionState := 0
    subscriptions := 0 }

/-- An event of a type was received. -/
def countReceived (m : Metrics) (k : EventType) : Metrics :=
  { m with received := m.received.bump k }

/-- An event of a type was processed to its end. -/
def countProcessed (m : Metrics) (k : EventType) : Metrics :=
  { m with processed := m.processed.bump k }

/-- A frame was dropped for a reason. -/
def countDropped (m : Metrics) (k : DropReason) : Metrics :=
  { m with dropped := m.dropped.bump k }

/-- A message was sent.  Pings have a counter of their own beside. -/
def countSent (m : Metrics) (k : MessageType) : Metrics :=
  { m with sent := m.sent.bump k, pings := if k = .ping then m.pings + 1 else m.pings }

/-- An answer to a ping was received. -/
def countAck (m : Metrics) : Metrics :=
  { m with acks := m.acks + 1 }

/-- A refresh of the catalog ended. -/
def countRefresh (m : Metrics) (success : Bool) : Metrics :=
  if success then { m with refreshes := m.refreshes + 1 }
  else { m with failedRefreshes := m.failedRefreshes + 1 }

/-- The catalog has so many markets. -/
def setCatalogMarkets (m : Metrics) (n : Nat) : Metrics :=
  { m with catalogMarkets := n }

/-- The connection is in a state. -/
def setConnectionState (m : Metrics) (s : ConnectionState) : Metrics :=
  { m with connectionState := s.gauge }

/-- So many markets are subscribed. -/
def setSubscriptions (m : Metrics) (n : Nat) : Metrics :=
  { m with subscriptions := n }

end Metrics

end QuoteFeed
