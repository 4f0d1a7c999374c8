import QuoteFeed.Market.Basic

/-!
# The state of the connection to the exchange
-/

namespace QuoteFeed

/-- Where the connection to the exchange stands. -/
inductive ConnectionState where
  /-- No session is open. -/
  | disconnected
  /-- A session was asked for and has not opened yet. -/
  | connecting
  /-- The session is open and takes frames. -/
  | connected
  deriving DecidableEq, Inhabited

namespace ConnectionState

/-- The name of a state. -/
def name : ConnectionState → String
  | .disconnected => "disconnected"
  | .connecting => "connecting"
  | .connected => "connected"

/-- The name of a state in descriptions. -/
def title : ConnectionState → String
  | .disconnected => "Disconnected"
  | .connecting => "Connecting"
  | .connected => "Connected"

/-- Frames can be sent. -/
def isConnected : ConnectionState → Bool
  | .connected => true
  | _ => false

/-- The number of a state on its gauge. -/
def gauge : ConnectionState → Nat
  | .disconnected => 0
  | .connecting => 1
  | .connected => 2

end ConnectionState

end QuoteFeed
