import QuoteFeed.Surface.Exposition
import QuoteFeed.Surface.Form
import QuoteFeed.Surface.Health

/-!
# The HTTP surface

Six paths answer requests: quotations and markets, health and two probes, and the metrics.  A path
that is not known is not found, and a method other than reading is not allowed.  Reading the head
alone does the same work and leaves the body out.
-/

namespace QuoteFeed

/-- A request. -/
structure Request where
  method : String
  /-- The path and the query. -/
  target : String

/-- An answer. -/
structure Response where
  status : Nat
  contentType : Option String
  body : String
  deriving DecidableEq

namespace Response

/-- An answer without a body. -/
def bare (status : Nat) : Response := ⟨status, none, ""⟩

/-- A plain text. -/
def text (status : Nat) (body : String) : Response :=
  ⟨status, some "text/plain; charset=utf-8", body⟩

/-- A JSON value. -/
def json (status : Nat) (v : Json.Value) : Response :=
  ⟨status, some "application/json", v.toText⟩

/-- The answer without its body. -/
def head (r : Response) : Response := { r with body := "" }

/-- The metrics, if they are kept. -/
def metrics : Option Metrics → Response
  | some m => ⟨200, some "text/plain; version=0.0.4; charset=utf-8", m.exposition⟩
  | none => ⟨503, some "text/plain", "Metrics not initialized"⟩

end Response

/-- The path of a request. -/
def Request.path (r : Request) : List Char :=
  r.target.toList.takeWhile fun c => c ≠ '?' && c ≠ '#'

/-- The query of a request. -/
def Request.query (r : Request) : List Char :=
  ((r.target.toList.takeWhile (· ≠ '#')).dropWhile (· ≠ '?')).drop 1

/-! ### Quotations -/

/-- Why a query for quotations is refused. -/
inductive QueryError where
  | missing (field : String)
  | duplicate (field : String)
  deriving DecidableEq

/-- The text of an error. -/
def QueryError.message : QueryError → String
  | .missing field => "Failed to deserialize query string: missing field \x60" ++ field ++ "\x60"
  | .duplicate field =>
    "Failed to deserialize query string: duplicate field \x60" ++ field ++ "\x60"

/-- What a query for quotations says so far. -/
structure QuotationQuery where
  quote : Option String
  bases : Option String

namespace QuotationQuery

/-- Takes one more name with its value.  Other names are passed over. -/
def add (q : QuotationQuery) (p : String × String) : Except QueryError QuotationQuery :=
  if p.1 = "quote" then
    if q.quote.isSome then .error (.duplicate "quote") else .ok { q with quote := some p.2 }
  else if p.1 = "bases" then
    if q.bases.isSome then .error (.duplicate "bases") else .ok { q with bases := some p.2 }
  else
    .ok q

/-- The quote currency and the text of the bases of a query. -/
def parse (s : List Char) : Except QueryError (String × String) := do
  let q ← (Form.parse s).foldlM add ⟨none, none⟩
  match q.quote with
  | none => .error (.missing "quote")
  | some quote => return (quote, q.bases.getD "")

end QuotationQuery

/-- The base currencies in a text: what is not blank between commas, without the blanks around. -/
def splitBases (s : String) : List String :=
  ((splitAtMark ',' s.toList).map fun part => String.ofList (Text.trimChars part)).filter
    (!·.isEmpty)

namespace Service

/-- Answers a query for quotations. -/
def respondQuotations (env : Environment) (s : Service) (query : List Char) : Response × Service :=
  match QuotationQuery.parse query with
  | .error e => (.text 400 e.message, s)
  | .ok (quote, bases) =>
    let (quotes, s) := s.quotations env (Text.trim quote) (splitBases bases)
    (.json 200 (.array (quotes.map Quote.toJson)), s)

/-- A market with its rules. -/
def marketView (settings : Settings) (m : Market) : Json.Value :=
  .record (m.members ++ [("trading_rules", (m.rules (settings.precision.find m.base)).toJson)])

/-- Answers a query for the markets. -/
def respondMarkets (env : Environment) (s : Service) : Response :=
  .json 200 (.array ((s.catalog.current s.now).map (marketView env.settings)))

/-- Answers a query for the health. -/
def respondHealth (env : Environment) (s : Service) : Response :=
  let h := Health.of env s
  .json (if h.status = .unhealthy then 503 else 200) h.toJson

/-- Answers whether there is a catalog. -/
def respondReady (s : Service) : Response :=
  if s.catalog.isEmpty s.now then .text 503 "NOT READY" else .text 200 "READY"

/-- What a path answers when it is read, if it is known. -/
def read? (env : Environment) (s : Service) (r : Request) : Option (Response × Service) :=
  match String.ofList r.path with
  | "/quotations" => some (s.respondQuotations env r.query)
  | "/markets" => some (s.respondMarkets env, s)
  | "/health" => some (s.respondHealth env, s)
  | "/healthz" => some (.text 200 "OK", s)
  | "/readyz" => some (s.respondReady, s)
  | "/metrics" => some (.metrics (some s.report.metrics), s)
  | _ => none

/-- Answers a request. -/
def respond (env : Environment) (s : Service) (r : Request) : Response × Service :=
  match s.read? env r with
  | none => (.bare 404, s)
  | some (response, after) =>
    if r.method = "GET" then (response, after)
    else if r.method = "HEAD" then (response.head, after)
    else (.bare 405, s)

/-! ### Descriptions -/

/-- A description of the service. -/
def describe (s : Service) : String :=
  "QuotationRuntime \x7b connection: " ++ s.toStream.describe ++ ", running: " ++
    toString s.running ++ ", .. \x7d"

/-- A description of the subscriptions. -/
def describeSubscriptions (s : Service) : String :=
  "SubscriptionManager \x7b subscribed: " ++ Numeral.text s.subscribed.size ++ ", .. \x7d"

/-- A description of the queries. -/
def describeQueries (s : Service) : String :=
  "QuotationQueryService \x7b catalog: " ++ s.catalog.describe s.now ++ ", demand: " ++
    Numeral.text s.demand.size ++ ", .. \x7d"

end Service

end QuoteFeed
