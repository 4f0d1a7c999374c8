import QuoteFeed.Market.Basic

/-!
# Messages to the exchange

A market is subscribed and unsubscribed on one of two channels.  Orders to the exchange are JSON
objects that start with their type; a subscription to the order book names the depth.
-/

namespace QuoteFeed

/-- The channels that a market can be quoted from. -/
inductive Channel where
  /-- The best bid and ask as the exchange reports them. -/
  | ticker
  /-- Snapshots of the order book, averaged by size. -/
  | orderBook
  deriving DecidableEq, Inhabited

namespace Channel

/-- The channel that is used when none is chosen. -/
def default : Channel := .orderBook

/-- The name of a channel on the wire. -/
def name : Channel → String
  | .ticker => "ticker"
  | .orderBook => "orderbook"

/-- The channel of a name in any case; every name but `ticker` chooses the order book. -/
def ofName (s : String) : Channel :=
  if Text.lowersTo "ticker" s then .ticker else .orderBook

end Channel

/-- A message to the exchange. -/
inductive Outbound where
  | subscribe (id : MarketId) (channel : Channel) (limit : Option Nat)
  | unsubscribe (id : MarketId) (channel : Channel)
  | ping
  deriving DecidableEq

namespace Outbound

/-- The type of a message. -/
def kind : Outbound → String
  | .subscribe .. => "subscribe"
  | .unsubscribe .. => "unsubscribe"
  | .ping => "ping"

/-- The members of a message after its type. -/
def arguments : Outbound → List (String × Json.Value)
  | .subscribe id channel limit =>
    [("id", .text id.name), ("name", .text channel.name)] ++
      (limit.map fun n => ("limit", Json.Value.nat n)).toList
  | .unsubscribe id channel => [("id", .text id.name), ("name", .text channel.name)]
  | .ping => []

/-- A message as a JSON object. -/
def toJson (m : Outbound) : Json.Value :=
  .record (("type", .text m.kind) :: m.arguments)

/-- The frame of a message. -/
def encode (m : Outbound) : String :=
  m.toJson.toText

end Outbound

end QuoteFeed
