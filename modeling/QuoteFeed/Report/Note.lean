import QuoteFeed.Market.Basic
import QuoteFeed.Text.Quoted
import QuoteFeed.Wire.Inbound

/-!
# Notes

What the service reports about its work, one constructor per kind of note.  `Note.text` writes a
note as a line: its level, its topic, its message and its fields.
-/

namespace QuoteFeed

/-- Why the markets of the exchange could not be fetched. -/
inductive FetchError where
  /-- The request was not answered. -/
  | request
  /-- The answer has a status other than success. -/
  | status (code : Nat) (body : String)
  /-- The answer is no listing of markets. -/
  | decode
  deriving DecidableEq

/-- The text of an error. -/
def FetchError.message : FetchError → String
  | .request => "catalog request failed"
  | .status code body =>
    "catalog endpoint returned status " ++ Numeral.text code ++ ": " ++ body
  | .decode => "catalog response could not be decoded"

/-- The error of a session that no longer takes frames. -/
def sessionClosedMessage : String := "transport session is closed"

/-- How much a note matters. -/
inductive Severity where
  | debug
  | info
  | warn
  | error
  deriving DecidableEq

/-- The name of a severity. -/
def Severity.name : Severity → String
  | .debug => "DEBUG"
  | .info => "INFO"
  | .warn => "WARN"
  | .error => "ERROR"

/-- What the service reports. -/
inductive Note where
  /-- A session was asked for. -/
  | connecting (generation : Nat) (url : String)
  /-- The connection was stopped. -/
  | stopped (generation : Nat)
  /-- A session opened that is not waited for. -/
  | staleOpen (generation : Nat)
  /-- The session opened. -/
  | connected (generation subscriptions : Nat)
  /-- A session ended that is not the current one. -/
  | staleClose (generation : Nat) (reason : String)
  /-- The session ended. -/
  | closed (generation : Nat) (reason : String) (dropped : Nat)
  /-- No further event of a session is taken. -/
  | dispatchEnded (generation : Nat)
  /-- A frame was refused by its session. -/
  | frameRefused (generation : Nat)
  /-- A subscription waits until the connection is started. -/
  | subscribeHeld (id : MarketId)
  /-- A subscription waits until the session opens. -/
  | subscribeDeferred (id : MarketId)
  /-- There is no session to speak to. -/
  | noSession
  /-- Nobody listens to the session. -/
  | receiverDropped
  /-- A refresh is under way already. -/
  | refreshSkipped
  /-- The catalog was refreshed. -/
  | refreshed (markets : Nat)
  /-- The catalog could not be refreshed. -/
  | refreshFailed (error : FetchError) (retrySeconds : Nat)
  /-- The subscriptions were changed. -/
  | synced (added removed total : Nat)
  /-- No pair that was asked for has a market that trades. -/
  | noMarkets (quote : String) (bases : Nat)
  /-- Markets out of demand were unsubscribed. -/
  | released (count : Nat)
  /-- A ping was answered. -/
  | ackReceived (acks : Nat)
  /-- A frame is no event. -/
  | frameDropped (error : FrameError) (reason : String)
  /-- An event is of a market that is not in the catalog. -/
  | unknownMarket (id : MarketId)
  /-- An order book has a side without a price. -/
  | emptyBook (id : MarketId)
  /-- The service was started. -/
  | serviceStarted (windowSeconds : Nat)
  /-- The service was stopped. -/
  | serviceStopped
  /-- The program starts. -/
  | starting
  /-- The settings were read. -/
  | configured (channel : String) (port quoteSeconds windowSeconds refreshSeconds : Nat)
  /-- The program is ready. -/
  | ready
  /-- The program was told to end. -/
  | told (signal : String)
  /-- Requests are not answered. -/
  | surfaceFailed (reason : String)
  /-- The program has ended. -/
  | finished
  deriving DecidableEq

/-- The value of a field: a text between quotes, or one as it is. -/
inductive Note.Value where
  | quoted (s : String)
  | plain (s : String)

namespace Note

/-- The part of the service that a note comes from. -/
inductive Topic where
  | connection
  | processor
  | exchange
  | runtime
  | catalog
  | subscription
  | quotation
  | program

/-- The path of a topic. -/
def Topic.path : Topic → String
  | .connection => "quotation_stream::infrastructure::exchange::connection"
  | .processor => "quotation_stream::infrastructure::exchange::processor"
  | .exchange => "quotation_stream::infrastructure::exchange::mock"
  | .runtime => "quotation_stream::infrastructure::runtime"
  | .catalog => "quotation_stream::application::services::catalog"
  | .subscription => "quotation_stream::application::services::subscription"
  | .quotation => "quotation_stream::application::services::quotation"
  | .program => "quotation_stream"

/-- A count as a field. -/
def count (name : String) (n : Nat) : String × Value :=
  (name, .plain (Numeral.text n))

/-- A note in parts. -/
structure Line where
  severity : Severity
  topic : Topic
  message : String
  fields : List (String × Value)

/-- The parts of a note. -/
def line : Note → Line
  | .connecting generation url =>
    ⟨.info, .connection, "Connecting to exchange stream",
      [count "generation" generation, ("url", .plain url)]⟩
  | .stopped generation =>
    ⟨.info, .connection, "Stream connection stopped", [count "generation" generation]⟩
  | .staleOpen generation =>
    ⟨.debug, .connection, "Ignoring open from stale session", [count "generation" generation]⟩
  | .connected generation subscriptions =>
    ⟨.info, .connection, "Exchange stream connected",
      [count "generation" generation, count "subscriptions" subscriptions]⟩
  | .staleClose generation reason =>
    ⟨.debug, .connection, "Ignoring close from stale session",
      [count "generation" generation, ("reason", .quoted reason)]⟩
  | .closed generation reason dropped =>
    ⟨.warn, .connection, "Exchange stream closed, reconnecting on next demand",
      [count "generation" generation, ("reason", .quoted reason),
        count "dropped_subscriptions" dropped]⟩
  | .dispatchEnded generation =>
    ⟨.debug, .connection, "Stream dispatch ended", [count "generation" generation]⟩
  | .frameRefused generation =>
    ⟨.warn, .connection, "Outbound frame not sent",
      [("error", .plain sessionClosedMessage), count "generation" generation]⟩
  | .subscribeHeld id =>
    ⟨.debug, .connection, "Connection stopped, holding subscribe until start",
      [("market_id", .plain id.name)]⟩
  | .subscribeDeferred id =>
    ⟨.debug, .connection, "Deferring subscribe until connected", [("market_id", .plain id.name)]⟩
  | .noSession => ⟨.debug, .exchange, "Mock transport has no session", []⟩
  | .receiverDropped => ⟨.debug, .exchange, "Mock session receiver dropped", []⟩
  | .refreshSkipped => ⟨.debug, .catalog, "Catalog refresh already in flight, skipping", []⟩
  | .refreshed markets => ⟨.info, .catalog, "Market catalog refreshed", [count "markets" markets]⟩
  | .refreshFailed error retrySeconds =>
    ⟨.warn, .catalog, "Market catalog refresh failed, keeping previous snapshot",
      [("error", .plain error.message), count "retry_in_secs" retrySeconds]⟩
  | .synced added removed total =>
    ⟨.info, .subscription, "Subscriptions synced",
      [count "added" added, count "removed" removed, count "total" total]⟩
  | .noMarkets quote bases =>
    ⟨.debug, .quotation, "No tradable markets for requested pairs",
      [("quote", .quoted quote), count "bases" bases]⟩
  | .released n =>
    ⟨.info, .quotation, "Released idle market subscriptions", [count "released" n]⟩
  | .ackReceived acks => ⟨.debug, .processor, "Keepalive ack received", [count "acks" acks]⟩
  | .frameDropped error reason =>
    ⟨.warn, .processor, "Dropping inbound frame",
      [("error", .plain error.message), ("reason", .quoted reason)]⟩
  | .unknownMarket id =>
    ⟨.warn, .processor, "Event for market not in catalog, dropping", [("market_id", .plain id.name)]⟩
  | .emptyBook id =>
    ⟨.debug, .processor, "Order book side without size, skipping", [("market_id", .plain id.name)]⟩
  | .serviceStarted windowSeconds =>
    ⟨.info, .runtime, "Quotation runtime started", [count "demand_window_secs" windowSeconds]⟩
  | .serviceStopped => ⟨.info, .runtime, "Quotation runtime stopped", []⟩
  | .starting => ⟨.info, .program, "Starting Quotation Stream", []⟩
  | .configured channel port quoteSeconds windowSeconds refreshSeconds =>
    ⟨.info, .program, "Configuration loaded",
      [("channel", .quoted channel), count "http_port" port, count "quote_ttl_secs" quoteSeconds,
        count "demand_window_secs" windowSeconds, count "catalog_refresh_secs" refreshSeconds]⟩
  | .ready => ⟨.info, .program, "Quotation stream ready", []⟩
  | .told signal => ⟨.info, .program, "Received " ++ signal ++ ", initiating shutdown", []⟩
  | .surfaceFailed reason => ⟨.error, .program, "HTTP server error", [("error", .plain reason)]⟩
  | .finished => ⟨.info, .program, "Quotation stream stopped", []⟩

/-- A field with its name. -/
def fieldText (f : String × Value) : String :=
  match f.2 with
  | .quoted s => f.1 ++ "=" ++ Text.quoted s
  | .plain s => f.1 ++ "=" ++ s

/-- A note as a line of text. -/
def text (n : Note) : String :=
  let l := n.line
  " ".intercalate
    ((l.severity.name ++ " " ++ l.topic.path ++ ": " ++ l.message) :: l.fields.map fieldText)

end Note

end QuoteFeed
