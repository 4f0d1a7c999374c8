import QuoteFeed.Demand
import QuoteFeed.Stream.Sync

/-!
# The service

The stream, the source of its catalog, the demand for markets and the two loops that run while the
service is started: the refresh of the catalog and the release of markets out of demand.

A query resolves pairs of currencies to markets, records the demand for them, subscribes what is in
demand and nothing else, and answers with the quotes that are at hand.
-/

namespace QuoteFeed

/-- The source of the catalog. -/
structure Source where
  markets : List Market
  failing : Bool
  fetches : Nat

/-- What a source that fails answers. -/
def Source.failure : FetchError := .status 503 "catalog unavailable"

/-- What the source answers. -/
def Source.answer (s : Source) : Except FetchError (List Market) :=
  if s.failing then .error failure else .ok s.markets

/-- A refresh of the catalog that was begun. -/
inductive RefreshCall where
  /-- The answer is on its way. -/
  | waiting (answer : Except FetchError (List Market))
  /-- The call has ended. -/
  | done (outcome : Desk.Refreshed)

/-- The service. -/
structure Service extends Stream where
  source : Source
  demand : Demand
  /-- The service was started and not stopped since. -/
  running : Bool
  /-- When the next refresh of the catalog is due. -/
  refreshDue : Option Nat
  /-- When the next release of idle markets is due. -/
  sweepDue : Option Nat
  /-- The refreshes that were begun, the latest first. -/
  calls : List RefreshCall

namespace Service

/-- The service before its start. -/
def initial (env : Environment) (markets : List Market) : Service :=
  { Stream.initial with
    source := ⟨markets, false, 0⟩
    demand := .empty env.settings.quotes.demandWindow
    running := false
    refreshDue := none
    sweepDue := none
    calls := [] }

/-- A note was made. -/
def note (s : Service) (n : Note) : Service :=
  { s with report := s.report.note n }

/-- The desk of the service changes. -/
def withDesk (s : Service) (d : Desk) : Service :=
  { s with toStream := { s.toStream with toDesk := d } }

/-- The stream of the service changes. -/
def onStream (s : Service) (f : Stream → Stream) : Service :=
  { s with toStream := f s.toStream }

/-! ### Refreshing the catalog -/

/-- The source was asked. -/
def countFetch (s : Service) : Service :=
  { s with source := { s.source with fetches := s.source.fetches + 1 } }

/-- Refreshes the catalog.  While another refresh is under way, the live markets are the answer and
the source is not asked. -/
def refresh (env : Environment) (s : Service) : Desk.Refreshed × Service :=
  let (begun, desk) := s.toDesk.beginRefresh
  if begun then
    let s := s.countFetch
    let (outcome, desk) := desk.endRefresh env s.source.answer
    (outcome, s.withDesk desk)
  else
    (.markets (s.catalog.current s.now), s.withDesk desk)

/-- Begins a refresh whose answer is not taken yet. -/
def beginRefresh (s : Service) : Service :=
  let (begun, desk) := s.toDesk.beginRefresh
  let call : RefreshCall :=
    if begun then .waiting s.source.answer else .done (.markets (s.catalog.current s.now))
  let s := if begun then s.countFetch else s
  { s.withDesk desk with calls := call :: s.calls }

/-- Ends the calls that wait for an answer. -/
def settleCalls (env : Environment) : List RefreshCall → Desk → List RefreshCall × Desk
  | [], d => ([], d)
  | .done outcome :: calls, d =>
    let (calls, d) := settleCalls env calls d
    (.done outcome :: calls, d)
  | .waiting answer :: calls, d =>
    let (calls, d) := settleCalls env calls d
    let (outcome, d) := d.endRefresh env answer
    (.done outcome :: calls, d)

/-- Takes all answers that are on their way.  The outcome is that of the latest call. -/
def finishRefresh (env : Environment) (s : Service) : Option Desk.Refreshed × Service :=
  let (calls, desk) := settleCalls env s.calls s.toDesk
  let s := s.withDesk desk
  match calls with
  | .done outcome :: calls => (some outcome, { s with calls })
  | calls => (none, { s with calls })

/-- Drops the latest call.  If it waits, the refresh is given up. -/
def abortRefresh (s : Service) : Service :=
  match s.calls with
  | .waiting _ :: calls => { s.withDesk s.toDesk.releaseRefresh with calls }
  | .done _ :: calls => { s with calls }
  | [] => s

/-- Refreshes the catalog and says how long to wait for the next time, unless the lifetime of the
snapshot leads beyond the clock. -/
def refreshCycle (env : Environment) (s : Service) : Option Nat × Service :=
  match s.refresh env with
  | (.markets _, s) => (some env.settings.catalog.refresh, s)
  | (.failed _, s) => (some env.settings.catalog.retry, s)
  | (.overflow, s) => (none, s)

end Service

end QuoteFeed
