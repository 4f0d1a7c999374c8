import QuoteFeed.Proofs.Service.Connection
import QuoteFeed.Proofs.Service.Interest
import QuoteFeed.Surface.Health

/-!
# What health says about streaming

The status compares the markets of interest with the state of the connection.  A healthy service
streams its markets of interest (`streams_of_healthy`).  After a synchronisation these are the
markets that are wanted.  Until the next one they may be fewer: when a session ends no interest is
left, while its markets are wanted as before (`healthy_without_session`).
-/

namespace QuoteFeed.Service

variable {env : Environment} {s : Service} {m : MarketId}

/-- The market is streamed: the session is open, and was told last that the market is of
interest. -/
def Streams (s : Service) (m : MarketId) : Prop :=
  s.state = .connected ∧ (switches m (s.transport.sentOn s.generation)).getLast? = some true

/-- The market is wanted: it was requested within the window, and is live. -/
def Wants (env : Environment) (history : List Demand.Request) (s : Service) (m : MarketId) : Prop :=
  (∃ r ∈ history, r.market = m ∧ s.now ≤ r.time + env.settings.quotes.demandWindow) ∧
    ∃ listing ∈ s.catalog.current s.now, listing.id = m

/-- A service is healthy if there are live markets, and the session is open or there is no interest
in any of them. -/
theorem healthy_iff :
  (Health.of env s).status = .healthy ↔
    s.catalog.current s.now ≠ [] ∧ (s.state = .connected ∨ s.subscribed = .empty)
  := by
  change Health.statusOf (s.catalog.size s.now) s.subscribed.size s.state = .healthy ↔ _
  have hc : s.state.isConnected ↔ s.state = .connected := by
    cases s.state with
    | disconnected => simp [ConnectionState.isConnected]
    | connecting => simp [ConnectionState.isConnected]
    | connected => simp [ConnectionState.isConnected]
  rw [Health.statusOf, ← IdSet.size_eq_zero, ← hc]
  by_cases hm : s.catalog.current s.now = []
  · simp [Catalog.size, hm]
  · by_cases hs : s.subscribed.size = 0
    · simp [Catalog.size, hm, hs]
    · simp [Catalog.size, hm, hs, Nat.pos_of_ne_zero hs]

/-- On a transport that works a healthy service streams its markets of interest, unless the session
was lost meanwhile. -/
theorem streams_of_healthy (hl : s.toLink.Ledger) (h : (Health.of env s).status = .healthy)
    (hm : m ∈ s.subscribed) :
  s.state = .connected ∧ (s.transport.isOpen s.generation → s.Streams m)
  := by
  obtain ⟨-, hs | he⟩ := healthy_iff.1 h
  · use hs
    intro ho
    use hs
    exact (hl.told hs ho m).2 hm
  · rw [he] at hm
    apply absurd hm (IdSet.not_mem_empty m)

/-- After every run on a transport that works, a service that is healthy has live markets and
streams its markets of interest.  If the run ends with a synchronisation it streams all live markets
that were requested within the window. -/
theorem streams_after_run (env : Environment) (markets : List Market) {as : List Action}
    (hr : Reliable as) :
  let s := (initial env markets).run env as
  (Health.of env s).status = .healthy →
    s.catalog.current s.now ≠ [] ∧
      (∀ m ∈ s.subscribed,
        s.state = .connected ∧ (s.transport.isOpen s.generation → s.Streams m)) ∧
      ∀ before a, as = before ++ [a] → ((initial env markets).run env before).Synchronises a →
        ∀ m, s.Wants env ((initial env markets).requests env as) m →
          s.state = .connected ∧ (s.transport.isOpen s.generation → s.Streams m)
  := by
  intro s h
  have hs (m : MarketId) (hm : m ∈ s.subscribed) :
      s.state = .connected ∧ (s.transport.isOpen s.generation → s.Streams m) :=
    streams_of_healthy (ledger_run env markets hr) h hm
  refine ⟨(healthy_iff.1 h).1, hs, ?_⟩
  rintro before a rfl ha m hm
  have hw : s.subscribed = s.wanted := by
    rw [show s = ((initial env markets).run env before).step env a from run_concat before a]
    apply subscribed_step ha
  apply hs
  rw [hw]
  exact (tracks_run env markets (before ++ [a])).mem_wanted.2 hm

/-- The service is started and its session opens. -/
def opening : List Action :=
  [.start, .refreshTimer, .connection (.event 1 .opened)]

/-- On a session that opened, a market is streamed once it is asked for. -/
theorem streams_after_query :
  let s := standard.run .standard (opening ++ [.quotations "EUR" ["btc"]])
  Reliable (opening ++ [.quotations "EUR" ["btc"]]) ∧ (Health.of .standard s).status = .healthy ∧
    s.Streams ⟨"BTC-EUR"⟩
  := by
  intro s
  have hr : Reliable (opening ++ [.quotations "EUR" ["btc"]]) := by simp [Reliable, opening]
  have ha : (standard.run .standard opening).Synchronises (.quotations "EUR" ["btc"]) := by
    change (standard.run .standard opening).resolve "EUR" ["btc"] ≠ []
    decide +kernel
  have h : (Health.of .standard s).status = .healthy := by decide +kernel
  have hw : s.Wants .standard (standard.requests .standard (opening ++ [.quotations "EUR" ["btc"]]))
      ⟨"BTC-EUR"⟩ := by
    have hq : standard.requests .standard (opening ++ [.quotations "EUR" ["btc"]]) =
        [⟨⟨"BTC-EUR"⟩, 0⟩] := by
      decide +kernel
    rw [Wants, hq]
    decide +kernel
  have ho : s.transport.isOpen s.generation := by decide +kernel
  use hr, h
  -- unless both sides read the same, unification evaluates the run
  unfold s standard at *
  obtain ⟨-, -, hm⟩ := streams_after_run .standard _ hr h
  exact (hm opening _ rfl ha _ hw).2 ho

/-- When the session ends that a market is streamed on, the market is wanted as before and the
service is healthy, but the market is not streamed any more. -/
theorem healthy_without_session :
  let as := opening ++ [.quotations "EUR" ["btc"], .connection (.event 1 (.closed "bye"))]
  let s := standard.run .standard as
  s.running ∧ (Health.of .standard s).status = .healthy ∧
    s.Wants .standard (standard.requests .standard as) ⟨"BTC-EUR"⟩ ∧ ¬ s.Streams ⟨"BTC-EUR"⟩
  := by
  have hq : standard.requests .standard (opening ++ [.quotations "EUR" ["btc"],
      .connection (.event 1 (.closed "bye"))]) = [⟨⟨"BTC-EUR"⟩, 0⟩] := by
    decide +kernel
  refine ⟨by decide +kernel, by decide +kernel, ?_, ?_⟩
  · rw [Wants, hq]
    decide +kernel
  · rintro ⟨hs, -⟩
    revert hs
    decide +kernel

end QuoteFeed.Service
