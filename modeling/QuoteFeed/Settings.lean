import QuoteFeed.Clock
import QuoteFeed.Text.Blank
import QuoteFeed.Wire.Outbound

/-!
# Settings

The settings of the service and how they are read from named variables.  The two addresses are
required and must have one of their schemes; the keepalive interval must not be zero.  Every other
variable that is absent or does not read as its kind of number leaves the default in place.
-/

namespace QuoteFeed

/-- The values of named variables. -/
abbrev Variables := String → Option String

/-- The settings of the connection to the exchange. -/
structure StreamSettings where
  url : String
  channel : Channel
  depth : Nat
  keepalive : Nat
  eventBuffer : Nat

/-- The settings of the market catalog. -/
structure CatalogSettings where
  url : String
  refresh : Nat
  retry : Nat
  grace : Nat
  timeout : Nat

/-- The settings of quotes and demand. -/
structure QuoteSettings where
  ttl : Nat
  demandWindow : Nat

/-- The number of places of each currency that has one of its own, by its name in upper case. -/
abbrev PrecisionTable := List (String × Nat)

/-- The settings of the service. -/
structure Settings where
  stream : StreamSettings
  catalog : CatalogSettings
  quotes : QuoteSettings
  httpPort : Nat
  precision : PrecisionTable

/-- The depth that a subscription names, if its channel has one. -/
def StreamSettings.subscriptionLimit (s : StreamSettings) : Option Nat :=
  match s.channel with
  | .orderBook => some s.depth
  | .ticker => none

/-- How long a catalog lives: the time between refreshes and the grace, at most the longest span. -/
def CatalogSettings.lifetime (s : CatalogSettings) : Nat :=
  Duration.plus s.refresh s.grace

/-! ### Precision -/

/-- The precision of a currency that has none of its own. -/
def defaultPrecision : Nat := 8

/-- The parts of a list of characters between occurrences of `mark`. -/
def splitAtMark (mark : Char) : List Char → List (List Char)
  | [] => [[]]
  | c :: s =>
    if c = mark then
      [] :: splitAtMark mark s
    else
      match splitAtMark mark s with
      | [] => [[c]]
      | part :: parts => (c :: part) :: parts

/-- A currency and its precision, written with a colon between them. -/
def PrecisionTable.entry? (s : List Char) : Option (String × Nat) :=
  match s.dropWhile (· ≠ ':') with
  | [] => none
  | _ :: places =>
    let currency := Text.trimChars (s.takeWhile (· ≠ ':'))
    if currency.isEmpty then
      none
    else
      (Numeral.unsigned? Numeral.max32 (Text.trimChars places)).map
        (Text.upperCase (String.ofList currency), ·)

/-- The table that a text spells: entries between commas, of which the malformed are passed over. -/
def PrecisionTable.parse (raw : String) : PrecisionTable :=
  (splitAtMark ',' raw.toList).filterMap entry?

/-- The precision of a currency, in any case: the last one that the table has for it. -/
def PrecisionTable.find (t : PrecisionTable) (currency : String) : Nat :=
  ((t.reverse.find? fun e => e.1 = Text.upperCase currency).map (·.2)).getD defaultPrecision

namespace Settings

/-! ### Defaults -/

/-- The settings for two addresses, with defaults for all else. -/
def defaults (streamUrl catalogUrl : String) : Settings :=
  { stream :=
      { url := streamUrl
        channel := .default
        depth := 10
        keepalive := Duration.millis 4000
        eventBuffer := 1024 }
    catalog :=
      { url := catalogUrl
        refresh := Duration.seconds 3600
        retry := Duration.seconds 10
        grace := Duration.seconds 300
        timeout := Duration.seconds 10 }
    quotes := { ttl := Duration.seconds 60, demandWindow := Duration.seconds 300 }
    httpPort := 8083
    precision := [] }

/-! ### Variables -/

/-- Why settings cannot be read. -/
inductive Error where
  /-- A required variable is absent. -/
  | missing (key : String)
  /-- A required variable is blank. -/
  | blank (key : String)
  /-- The value of an address has none of its schemes. -/
  | scheme (key : String) (schemes : List String)
  /-- The value is zero where it must not be. -/
  | zero (key : String)
  deriving DecidableEq

/-- The text of an error. -/
def Error.message : Error → String
  | .missing key => "missing required environment variable: " ++ key
  | .blank key => "environment variable " ++ key ++ " cannot be empty"
  | .scheme key schemes =>
    "environment variable " ++ key ++ " is invalid: expected one of " ++ ", ".intercalate schemes
  | .zero key => "environment variable " ++ key ++ " is invalid: must be greater than zero"

/-- The name of the variable with the address of the stream. -/
def streamUrlKey : String := "EXCHANGE_STREAM_URL"

/-- The name of the variable with the address of the catalog. -/
def catalogUrlKey : String := "EXCHANGE_CATALOG_URL"

/-- The name of the variable with the keepalive interval. -/
def keepaliveKey : String := "QUOTATION_KEEPALIVE_INTERVAL_MS"

/-- The schemes of the address of the stream. -/
def streamSchemes : List String := ["ws://", "wss://"]

/-- The schemes of the address of the catalog. -/
def catalogSchemes : List String := ["http://", "https://"]

/-- The value of a required variable without the blanks around it. -/
def required (vars : Variables) (key : String) : Except Error String :=
  match vars key with
  | none => .error (.missing key)
  | some v => if (Text.trim v).isEmpty then .error (.blank key) else .ok (Text.trim v)

/-- An address with one of its schemes. -/
def address (vars : Variables) (key : String) (schemes : List String) : Except Error String := do
  let url ← required vars key
  if schemes.any fun s => s.toList.isPrefixOf url.toList then .ok url
  else .error (.scheme key schemes)

/-- The number in a variable, if it is at most `limit`. -/
def number? (vars : Variables) (key : String) (limit : Nat) : Option Nat :=
  (vars key).bind fun v => Numeral.unsigned? limit (Text.trimChars v.toList)

/-- The number in a variable or a default. -/
def numberOr (vars : Variables) (key : String) (limit absent : Nat) : Nat :=
  (number? vars key limit).getD absent

/-- The span of seconds in a variable or a default. -/
def secondsOr (vars : Variables) (key : String) (absent : Nat) : Nat :=
  ((number? vars key Numeral.max64).map Duration.seconds).getD absent

/-- The span of milliseconds in a variable or a default. -/
def millisOr (vars : Variables) (key : String) (absent : Nat) : Nat :=
  ((number? vars key Numeral.max64).map Duration.millis).getD absent

/-- The settings that variables describe. -/
def ofVariables (vars : Variables) : Except Error Settings := do
  let streamUrl ← address vars streamUrlKey streamSchemes
  let catalogUrl ← address vars catalogUrlKey catalogSchemes
  let base := defaults streamUrl catalogUrl
  let keepalive := millisOr vars keepaliveKey base.stream.keepalive
  if keepalive = 0 then
    .error (.zero keepaliveKey)
  else
    return {
      stream :=
        { url := streamUrl
          channel := ((vars "QUOTATION_QUOTE_CHANNEL").map Channel.ofName).getD base.stream.channel
          depth := numberOr vars "QUOTATION_ORDERBOOK_DEPTH" Numeral.max32 base.stream.depth
          keepalive
          eventBuffer :=
            max 1 (numberOr vars "QUOTATION_EVENT_BUFFER" Numeral.max64 base.stream.eventBuffer) }
      catalog :=
        { url := catalogUrl
          refresh := secondsOr vars "QUOTATION_CATALOG_REFRESH_SECS" base.catalog.refresh
          retry := secondsOr vars "QUOTATION_CATALOG_RETRY_SECS" base.catalog.retry
          grace := secondsOr vars "QUOTATION_CATALOG_TTL_GRACE_SECS" base.catalog.grace
          timeout := secondsOr vars "QUOTATION_CATALOG_TIMEOUT_SECS" base.catalog.timeout }
      quotes :=
        { ttl := secondsOr vars "QUOTATION_QUOTE_TTL_SECS" base.quotes.ttl
          demandWindow := secondsOr vars "QUOTATION_DEMAND_WINDOW_SECS" base.quotes.demandWindow }
      httpPort := numberOr vars "QUOTATION_HTTP_PORT" Numeral.max16 base.httpPort
      precision :=
        ((vars "QUOTATION_CURRENCY_PRECISION").map PrecisionTable.parse).getD base.precision }

end Settings

end QuoteFeed
