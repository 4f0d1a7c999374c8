import QuoteFeed.Proofs.Catalog
import QuoteFeed.Proofs.Demand
import QuoteFeed.Proofs.Service.Run
import QuoteFeed.Proofs.Stream.Sync

/-!
# Interest follows demand

Which markets the stream has interest in depends on the demand, the catalog and all that happened
to the connection.  After a synchronisation only the requests of the run so far and the live
markets of the catalog count.  `Service.Tracks` relates the demand to these requests, and every
action keeps it (`tracks_step`).
-/

namespace QuoteFeed.Service

variable {env : Environment} {s : Service}

/-! ### The requests of a run -/

/-- The requests that an action makes: a query requests the markets that it resolves. -/
def requested (s : Service) : Action → List Demand.Request
  | .quotations quote bases => (s.resolve quote bases).map (⟨·, s.now⟩)
  | _ => []

/-- The requests that a run makes. -/
def requests (env : Environment) (s : Service) : List Action → List Demand.Request
  | [] => []
  | a :: as => s.requested a ++ (s.step env a).requests env as

theorem requests_concat (as : List Action) (a : Action) :
  s.requests env (as ++ [a]) = s.requests env as ++ (s.run env as).requested a
  := by
  induction as generalizing s with
  | nil => simp [requests, run]
  | cons b as ih => rw [List.cons_append, requests, ih, requests, List.append_assoc, run, run,
      List.foldl_cons]

/-- The demand knows the latest request of each market, as far as it is within the window. -/
structure Tracks (env : Environment) (history : List Demand.Request) (s : Service) : Prop where
  window_eq : s.demand.window = env.settings.quotes.demandWindow
  /-- What the demand remembers was requested. -/
  sound : ∀ r ∈ s.demand.requests, r ∈ history
  past : ∀ r ∈ history, r.time ≤ s.now
  /-- What was requested within the window is remembered, from then or later. -/
  complete : ∀ r ∈ history, s.now - r.time ≤ s.demand.window →
    ∃ k ∈ s.demand.requests, k.market = r.market ∧ r.time ≤ k.time

namespace Tracks

variable {history : List Demand.Request} {s' : Service}

/-- The demand may wait. -/
theorem elapse (h : Tracks env history s) (hd : s'.demand = s.demand) (ht : s.now ≤ s'.now) :
  Tracks env history s'
  where
  window_eq := by rw [hd, h.window_eq]
  sound := by
    rw [hd]
    apply h.sound
  past r hr := Nat.le_trans (h.past r hr) ht
  complete r hr hw := by
    rw [hd] at hw ⊢
    apply h.complete r hr
    apply Nat.le_trans _ hw
    apply Nat.sub_le_sub_right ht

/-- Requests of now are not ahead of the time. -/
theorem past_record (h : Tracks env history s) (ms : List MarketId) {r : Demand.Request}
    (hr : r ∈ history ++ ms.map (⟨·, s.now⟩)) :
  r.time ≤ s.now
  := by
  rw [List.mem_append, List.mem_map] at hr
  obtain hr | ⟨m, -, rfl⟩ := hr
  · apply h.past r hr
  · apply Nat.le_refl

/-- Requests of now are recorded, and what is out of the window is forgotten. -/
theorem record (h : Tracks env history s) (ms : List MarketId) :
  Tracks env (history ++ ms.map (⟨·, s.now⟩))
    { s with demand := (s.demand.record s.now ms).prune s.now }
  where
  window_eq := by
    rw [Demand.window_prune, Demand.window_record, h.window_eq]
  sound r hr := by
    rw [Demand.mem_prune, Demand.mem_record] at hr
    rw [List.mem_append, List.mem_map]
    obtain ⟨⟨hm, ht⟩ | ⟨hr, -⟩, -⟩ := hr
    · right
      use r.market, hm
      rw [← ht]
    · left
      apply h.sound r hr
  past r hr := h.past_record ms hr
  complete r hr hw := by
    rw [Demand.window_prune, Demand.window_record] at hw
    by_cases hm : r.market ∈ ms
    · -- a market that is recorded is remembered from now
      use ⟨r.market, s.now⟩
      rw [Demand.mem_prune, Demand.mem_record]
      simp [hm, h.past_record ms hr]
    · rw [List.mem_append, List.mem_map] at hr
      obtain hr | ⟨m, hm', rfl⟩ := hr
      · obtain ⟨k, hk, e, ht⟩ := h.complete r hr hw
        use k
        rw [Demand.mem_prune, Demand.mem_record, e, Demand.window_record]
        have hk' : s.now - k.time ≤ s.demand.window :=
          Nat.le_trans (Nat.sub_le_sub_left ht s.now) hw
        exact ⟨⟨Or.inr ⟨hk, hm⟩, hk'⟩, rfl, ht⟩
      · apply absurd hm' hm

/-- Wanted are the markets that were requested within the window and are in the catalog. -/
theorem mem_wanted (h : Tracks env history s) {m : MarketId} :
  m ∈ s.wanted ↔
    (∃ r ∈ history, r.market = m ∧ s.now ≤ r.time + env.settings.quotes.demandWindow) ∧
      ∃ listing ∈ s.catalog.current s.now, listing.id = m
  := by
  rw [wanted, IdSet.mem_filter, Demand.mem_active, Catalog.isSome_find?]
  apply and_congr_left'
  constructor
  · rintro ⟨r, hr, rfl, hw⟩
    rw [h.window_eq] at hw
    use r, h.sound r hr, rfl
    apply Nat.sub_le_iff_le_add'.1 hw
  · rintro ⟨r, hr, rfl, hw⟩
    have hw : s.now - r.time ≤ s.demand.window := by
      rw [h.window_eq]
      apply Nat.sub_le_iff_le_add'.2 hw
    obtain ⟨k, hk, e, ht⟩ := h.complete r hr hw
    use k, hk, e
    apply Nat.le_trans (Nat.sub_le_sub_left ht s.now) hw

end Tracks

/-! ### Synchronisation -/

/-- Of the service, a synchronisation changes only the demand and the connection. -/
theorem books_syncDemand (env : Environment) (s : Service) (ms : List MarketId) :
  (s.syncDemand env ms).2.toDesk.books = s.toDesk.books
  := by
  rw [syncDemand]
  apply Stream.books_sync

theorem now_syncDemand (env : Environment) (s : Service) (ms : List MarketId) :
  (s.syncDemand env ms).2.now = s.now
  := by
  apply congrArg Desk.now (books_syncDemand env s ms)

theorem catalog_syncDemand (env : Environment) (s : Service) (ms : List MarketId) :
  (s.syncDemand env ms).2.catalog = s.catalog
  := by
  apply congrArg Desk.catalog (books_syncDemand env s ms)

/-- After a synchronisation there is interest in the markets that are wanted. -/
theorem subscribed_syncDemand (env : Environment) (s : Service) (ms : List MarketId) :
  (s.syncDemand env ms).2.subscribed = (s.syncDemand env ms).2.wanted
  := by
  rw [wanted, now_syncDemand, catalog_syncDemand]
  apply Stream.subscribed_sync

/-- An action synchronises the connection with the demand: a query that resolves a market, or a
release of idle markets. -/
def Synchronises (s : Service) : Action → Prop
  | .quotations quote bases => s.resolve quote bases ≠ []
  | .releaseIdle | .sweepTimer _ => True
  | _ => False

/-- A synchronisation leaves interest in the markets that are wanted. -/
theorem subscribed_step {a : Action} (ha : s.Synchronises a) :
  (s.step env a).subscribed = (s.step env a).wanted
  := by
  have hr : (s.releaseIdle env).2.subscribed = (s.releaseIdle env).2.wanted := by
    have h := subscribed_syncDemand env s []
    rw [releaseIdle]
    dsimp only
    split
    · apply h
    · apply h
  cases a with
  | quotations quote bases =>
    have hne : (s.resolve quote bases).isEmpty = false := by
      rw [List.isEmpty_eq_false_iff]
      apply ha
    rw [step, quotations, hne]
    apply subscribed_syncDemand
  | releaseIdle => apply hr
  | sweepTimer due => apply hr
  | _ => contradiction

/-! ### Every action keeps track of the demand -/

variable {history : List Demand.Request}

theorem tracks_keepsDemand {s' : Service} (h : Tracks env history s) (hs : s.KeepsDemand s') :
  Tracks env history s'
  := h.elapse hs.1 (Nat.le_of_eq hs.2.symm)

theorem tracks_syncDemand (h : Tracks env history s) (ms : List MarketId) :
  Tracks env (history ++ ms.map (⟨·, s.now⟩)) (s.syncDemand env ms).2
  := by
  apply (h.record ms).elapse
  · rfl
  · apply Nat.le_of_eq
    symm
    apply now_syncDemand env s ms

theorem tracks_releaseIdle (h : Tracks env history s) :
  Tracks env history (s.releaseIdle env).2
  := by
  have h := tracks_syncDemand h []
  rw [List.map_nil, List.append_nil] at h
  rw [releaseIdle]
  dsimp only
  split
  · apply h
  · exact tracks_keepsDemand h ⟨rfl, rfl⟩

theorem tracks_quotations (h : Tracks env history s) (quote : String) (bases : List String) :
  Tracks env (history ++ s.requested (.quotations quote bases)) (s.quotations env quote bases).2
  := by
  rw [requested, quotations]
  dsimp only
  split
  · rename_i hr
    rw [List.isEmpty_iff] at hr
    rw [hr, List.map_nil, List.append_nil]
    exact tracks_keepsDemand h ⟨rfl, rfl⟩
  · apply tracks_syncDemand h

/-- Every action keeps track of the demand. -/
theorem tracks_step (h : Tracks env history s) (a : Action) :
  Tracks env (history ++ s.requested a) (s.step env a)
  := by
  have quiet {s' : Service} (hs : Tracks env history s') : Tracks env (history ++ []) s' := by
    rw [List.append_nil]
    apply hs
  have keep {s' : Service} (hs : s.KeepsDemand s') : Tracks env (history ++ []) s' :=
    quiet (tracks_keepsDemand h hs)
  cases a with
  | quotations quote bases => apply tracks_quotations h
  | releaseIdle => apply quiet (tracks_releaseIdle h)
  | sweepTimer due => exact quiet (tracks_keepsDemand (tracks_releaseIdle h) ⟨rfl, rfl⟩)
  | elapse d => exact quiet (h.elapse rfl (Nat.le_add_right s.now d))
  | connection a => apply keep (keepsDemand_connection env s a)
  | start => apply keep (keepsDemand_start env s)
  | stop => apply keep (keepsDemand_stop env s)
  | sync wanted => apply keep (keepsDemand_sync env s wanted)
  | refresh => apply keep (keepsDemand_refresh env s)
  | beginRefresh => apply keep (keepsDemand_beginRefresh s)
  | finishRefresh => apply keep (keepsDemand_finishRefresh env s)
  | abortRefresh => apply keep (keepsDemand_abortRefresh s)
  | refreshTimer => apply keep (keepsDemand_refreshTick env s)
  | pingTimer due => apply keep (keepsDemand_pingTick env s due)
  | source source => exact keep ⟨rfl, rfl⟩
  | purge => exact keep ⟨rfl, rfl⟩

theorem tracks_run (env : Environment) (markets : List Market) (as : List Action) :
  Tracks env ((initial env markets).requests env as) ((initial env markets).run env as)
  := by
  induction as using List.reverseRecOn with
  | nil =>
    constructor
    · rfl
    · exact fun _ hr => hr
    · intro r hr
      apply absurd hr List.not_mem_nil
    · intro r hr
      apply absurd hr List.not_mem_nil
  | append_singleton as a ih =>
    rw [requests_concat, run_concat]
    apply tracks_step ih

/-- After every run that ends with a synchronisation, there is interest in exactly the markets that
some query of the run resolved within the window and that are in the catalog now. -/
theorem mem_subscribed_after_run (env : Environment) (markets : List Market) (as : List Action)
    {a : Action} (ha : ((initial env markets).run env as).Synchronises a) :
  let s := (initial env markets).run env (as ++ [a])
  ∀ m, m ∈ s.subscribed ↔
    (∃ r ∈ (initial env markets).requests env (as ++ [a]),
      r.market = m ∧ s.now ≤ r.time + env.settings.quotes.demandWindow) ∧
      ∃ listing ∈ s.catalog.current s.now, listing.id = m
  := by
  intro s m
  have hs : s.subscribed = s.wanted := by
    rw [show s = ((initial env markets).run env as).step env a from run_concat as a]
    apply subscribed_step ha
  rw [hs]
  apply (tracks_run env markets (as ++ [a])).mem_wanted

/-- The service in the standard environment, with a source that lists one market. -/
def standard : Service :=
  initial .standard [⟨⟨"BTC-EUR"⟩, "BTC", "EUR", 100, .zero, true⟩]

/-- A query for the only market of the catalog leaves interest in it. -/
theorem mem_subscribed_after_query :
  (standard.run .standard [.refresh]).Synchronises (.quotations "EUR" ["btc"]) ∧
    ⟨"BTC-EUR"⟩ ∈ (standard.run .standard [.refresh, .quotations "EUR" ["btc"]]).subscribed
  := by
  have hr : (standard.run .standard [.refresh]).resolve "EUR" ["btc"] = [⟨"BTC-EUR"⟩] := rfl
  have hq : standard.requests .standard [.refresh, .quotations "EUR" ["btc"]] =
    [⟨⟨"BTC-EUR"⟩, 0⟩] := rfl
  have ha : (standard.run .standard [.refresh]).Synchronises (.quotations "EUR" ["btc"]) := by
    rw [Synchronises, hr]
    simp
  use ha
  apply (mem_subscribed_after_run .standard _ [.refresh] ha _).2
  constructor
  · use ⟨⟨"BTC-EUR"⟩, 0⟩
    constructor
    · apply List.mem_of_mem_head?
      apply congrArg List.head? hq
    · exact ⟨rfl, Nat.zero_le _⟩
  · use ⟨⟨"BTC-EUR"⟩, "BTC", "EUR", 100, .zero, true⟩
    exact ⟨List.mem_of_mem_head? rfl, rfl⟩

end QuoteFeed.Service
