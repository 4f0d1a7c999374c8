import QuoteFeed.Proofs.Service.RefreshLoop

/-!
# Outages of the source

While the source fails, the catalog lives on its last list.  The loop fetches again some time after
the last success that grows with the failures since (`CatalogSettings.reach`), and the list must
outlive it for an outage to pass unnoticed.  With intervals that are positive this is a matter of
the grace and the time to a retry alone (`CatalogSettings.reach_lt_iff`), and nothing keeps
variables from giving a grace that is too short (`Service.blank_after_failure`).
-/

namespace QuoteFeed

/-- How long after a success the loop fetches, if so many fetches fail meanwhile. -/
def CatalogSettings.reach (c : CatalogSettings) (failures : Nat) : Nat :=
  max c.refresh Clock.resolution + failures * max c.retry Clock.resolution

namespace CatalogSettings

variable {c : CatalogSettings}

theorem reach_succ (c : CatalogSettings) (n : Nat) :
  c.reach (n + 1) = c.reach n + max c.retry Clock.resolution
  := by
  rw [reach, reach, Nat.succ_mul, Nat.add_assoc]

theorem reach_mono {m n : Nat} (h : m ≤ n) :
  c.reach m ≤ c.reach n
  := Nat.add_le_add_left (Nat.mul_le_mul_right _ h) _

/-- The list outlives so many failures exactly if the retries take less than the grace. -/
theorem reach_lt_iff (hr : Clock.resolution ≤ c.refresh) (hr' : Clock.resolution ≤ c.retry)
    (n : Nat) :
  c.reach n < c.refresh + c.grace ↔ n * c.retry < c.grace
  := by
  rw [reach, Nat.max_eq_left hr, Nat.max_eq_left hr']
  omega

end CatalogSettings

namespace Service

variable {env : Environment} {s : Service} {earlier failures : List Fetch} {f : Fetch}
  {ms : List Market}

/-! ### The fetch after an outage -/

/-- After a success and the failures since, the timer of the loop wakes when the reach of them is
over. -/
theorem wake_eq_of_failures (hc : (f :: failures).IsChain fun f g => g.time = f.wake env)
    (hf : f.answer = .ok ms) (hfail : ∀ g ∈ failures, g.failed)
    (hl : f.time + env.settings.catalog.reach failures.length < Clock.limit) :
  ∀ g ∈ (f :: failures).getLast?,
    g.wake env = f.time + env.settings.catalog.reach failures.length
  := by
  induction failures using List.reverseRecOn with
  | nil =>
    rw [List.getLast?_singleton]
    rintro _ ⟨⟩
    rw [CatalogSettings.reach, List.length_nil, Nat.zero_mul, Nat.add_zero] at hl ⊢
    rw [Fetch.wake, Fetch.delay_of_ok hf, Clock.wake_eq hl]
  | append_singleton failures g ih =>
    rw [← List.cons_append, List.getLast?_concat]
    rintro _ ⟨⟩
    rw [List.length_append, List.length_singleton, CatalogSettings.reach_succ, ← Nat.add_assoc]
      at hl ⊢
    rw [← List.cons_append, List.isChain_append] at hc
    rw [List.forall_mem_append, List.forall_mem_singleton] at hfail
    obtain ⟨hc, -, hlast⟩ := hc
    -- the failure is where the timer woke after the fetch before it
    obtain ⟨p, hp⟩ : ∃ p, (f :: failures).getLast? = some p := ⟨_, List.getLast?_cons⟩
    have ht : g.time = f.time + env.settings.catalog.reach failures.length := by
      rw [hlast p hp g rfl]
      apply ih hc hfail.1 _ p hp
      omega
    rw [Fetch.wake, Fetch.delay_of_failed hfail.2, ← ht]
    rw [← ht] at hl
    apply Clock.wake_eq hl

/-- The loop fetches next when the reach of the failures since the last success is over. -/
theorem Wakes.refreshDue_eq (h : Wakes env (earlier ++ f :: failures) s) (hf : f.answer = .ok ms)
    (hfail : ∀ g ∈ failures, g.failed)
    (hl : f.time + env.settings.catalog.reach failures.length < Clock.limit) :
  s.refreshDue = some (f.time + env.settings.catalog.reach failures.length)
  := by
  have hc := (List.isChain_append.1 h.spaced).2.1
  obtain ⟨p, hp⟩ : ∃ p, (f :: failures).getLast? = some p := ⟨_, List.getLast?_cons⟩
  rw [h.due_eq, nextWake?, List.getLast?_append, hp]
  exact congrArg some (wake_eq_of_failures hc hf hfail hl p hp)

/-! ### What the catalog shows in an outage -/

/-- The catalog keeps the list of a success through so many failures that the list outlives. -/
theorem Wakes.current_eq (h : Wakes env (earlier ++ f :: failures) s) (hf : f.answer = .ok ms)
    (hfail : ∀ g ∈ failures, g.failed)
    (hl : s.now + (env.settings.catalog.refresh + env.settings.catalog.grace) < Clock.limit)
    (hr : env.settings.catalog.reach failures.length <
      env.settings.catalog.refresh + env.settings.catalog.grace) :
  s.catalog.current s.now = ms
  := by
  have hp : f.time ≤ s.now := h.past f (by simp)
  have hd := h.refreshDue_eq hf hfail (by omega)
  have hle := h.le_due _ hd
  rw [current_eq_of_snapshot_eq h.snapshot_eq rfl hf hfail, if_pos (by omega)]

/-- The catalog is empty when the loop comes to fetch after more failures than the list outlives. -/
theorem Wakes.current_eq_nil (h : Wakes env (earlier ++ f :: failures) s) (hf : f.answer = .ok ms)
    (hfail : ∀ g ∈ failures, g.failed)
    (hl : f.time + env.settings.catalog.reach failures.length < Clock.limit)
    (hr : env.settings.catalog.refresh + env.settings.catalog.grace ≤
      env.settings.catalog.reach failures.length)
    (hd : s.refreshDue = some s.now) :
  s.catalog.current s.now = []
  := by
  have hn : s.now = f.time + env.settings.catalog.reach failures.length :=
    Option.some.inj (hd.symm.trans (h.refreshDue_eq hf hfail hl))
  rw [current_eq_of_snapshot_eq h.snapshot_eq rfl hf hfail, if_neg (by omega)]

/-- Take any settings that are accepted and any run on time in which the service is not stopped and
the catalog is refreshed by the loop alone.

After a success the catalog shows its list for as long as no more fetches fail than the list
outlives.  If the list does not outlive the failures since, the catalog is empty when the loop
comes to fetch again.  Where the intervals are positive, the list outlives `n` failures exactly if
`n` retries take less than the grace, so that a single one never blanks the catalog if and only if
the time to a retry is less than the grace. -/
theorem current_amid_failures (env : Environment) (vars : Variables) (markets : List Market)
    (as : List Action) (ha : Settings.ofVariables vars = .ok env.settings)
    (hl : ∀ a ∈ as, a.leavesLoop) (ht : (initial env markets).Timely env as)
    (hlt : ((initial env markets).run env as).now +
      (env.settings.catalog.refresh + env.settings.catalog.grace) < Clock.limit) :
  let s := (initial env markets).run env as
  let c := env.settings.catalog
  (0 < c.refresh → 0 < c.retry →
    ∀ n, c.reach n < c.refresh + c.grace ↔ n * c.retry < c.grace) ∧
  ∀ earlier f failures ms, (initial env markets).fetches env as = earlier ++ f :: failures →
    f.answer = .ok ms → (∀ g ∈ failures, g.failed) →
      (∀ n, failures.length ≤ n → c.reach n < c.refresh + c.grace →
        s.catalog.current s.now = ms) ∧
      (c.refresh + c.grace ≤ c.reach failures.length →
        f.time + c.reach failures.length < Clock.limit → s.refreshDue = some s.now →
          s.catalog.current s.now = [])
  := by
  intro s c
  have hw : Wakes env ((initial env markets).fetches env as) s := wakes_run env markets as hl ht hlt
  obtain ⟨hr, hr'⟩ := resolution_le_of_accepted ha
  constructor
  · intro hp hp'
    apply CatalogSettings.reach_lt_iff (hr hp) (hr' hp')
  · intro earlier f failures ms hh hf hfail
    rw [hh] at hw
    constructor
    · intro n hn hreach
      apply hw.current_eq hf hfail hlt (Nat.lt_of_le_of_lt (CatalogSettings.reach_mono hn) hreach)
    · intro hreach hlim hd
      apply hw.current_eq_nil hf hfail hlim hreach hd

/-- Variables that ask for a refresh every minute, and for some seconds of grace. -/
def brief (grace : String) : Variables := fun key =>
  if key = "QUOTATION_CATALOG_REFRESH_SECS" then some "60"
  else if key = "QUOTATION_CATALOG_TTL_GRACE_SECS" then some grace
  else addresses key

/-- The environment with a refresh every minute, and some seconds of grace. -/
def briefly (grace : Nat) : Environment :=
  let base := Environment.standard.settings
  { Environment.standard with
    settings := { base with
      catalog := { base.catalog with
        refresh := Duration.seconds 60
        grace := Duration.seconds grace } } }

theorem address_brief (grace : String) :
  Settings.address (brief grace) Settings.streamUrlKey Settings.streamSchemes =
      .ok "wss://stream.exchange.test" ∧
    Settings.address (brief grace) Settings.catalogUrlKey Settings.catalogSchemes =
      .ok "https://exchange.test/markets"
  := by
  have hs : brief grace Settings.streamUrlKey = some "wss://stream.exchange.test" := rfl
  have hc : brief grace Settings.catalogUrlKey = some "https://exchange.test/markets" := rfl
  rw [Settings.address, Settings.required, hs, Settings.address, Settings.required, hc]
  decide +kernel

/-- A run in which the fetch after a minute fails, until seven seconds later. -/
def outage : List Action :=
  [.start, .refreshTimer, .source ⟨[], true, 1⟩, .elapse (Duration.seconds 60), .refreshTimer,
    .elapse (Duration.seconds 7)]

/-- With a grace of twenty seconds the catalog keeps its list amid the outage. -/
theorem listed_amid_outage :
  Settings.ofVariables (brief "20") = .ok (briefly 20).settings ∧
    (∀ a ∈ outage, a.leavesLoop) ∧ (initial (briefly 20) listed).Timely (briefly 20) outage ∧
    ((initial (briefly 20) listed).run (briefly 20) outage).catalog.current
      ((initial (briefly 20) listed).run (briefly 20) outage).now = listed
  := by
  have ha : Settings.ofVariables (brief "20") = .ok (briefly 20).settings := by
    obtain ⟨hs, hc⟩ := address_brief "20"
    rw [Settings.ofVariables, hs, hc]
    rfl
  have hl : ∀ a ∈ outage, a.leavesLoop := by decide +kernel
  have ht : (initial (briefly 20) listed).Timely (briefly 20) outage := by decide +kernel
  have hlt : ((initial (briefly 20) listed).run (briefly 20) outage).now +
      ((briefly 20).settings.catalog.refresh + (briefly 20).settings.catalog.grace) <
        Clock.limit := by decide +kernel
  have hf : (initial (briefly 20) listed).fetches (briefly 20) outage =
      [] ++ ⟨0, .ok listed⟩ :: [⟨Duration.seconds 60, .error Source.failure⟩] := by decide +kernel
  have hr : (briefly 20).settings.catalog.reach 1 <
      (briefly 20).settings.catalog.refresh + (briefly 20).settings.catalog.grace := by
    decide +kernel
  obtain ⟨-, h⟩ := current_amid_failures (briefly 20) (brief "20") listed outage ha hl ht hlt
  refine ⟨ha, hl, ht, ?_⟩
  exact (h _ _ _ _ hf rfl (by decide)).1 1 (Nat.le_refl 1) hr

/-- The source answers again, and the loop fetches. -/
def recovery : List Action :=
  [.source ⟨listed, false, 2⟩, .elapse (Duration.seconds 3), .refreshTimer]

/-- With a grace of five seconds the catalog is empty amid the outage, though a single fetch failed
between two that succeeded. -/
theorem blank_after_failure :
  Settings.ofVariables (brief "5") = .ok (briefly 5).settings ∧
    (∀ a ∈ outage ++ recovery, a.leavesLoop) ∧
    (initial (briefly 5) listed).Timely (briefly 5) (outage ++ recovery) ∧
    (initial (briefly 5) listed).fetches (briefly 5) (outage ++ recovery) =
      [⟨0, .ok listed⟩, ⟨Duration.seconds 60, .error Source.failure⟩,
        ⟨Duration.seconds 70, .ok listed⟩] ∧
    ((initial (briefly 5) listed).run (briefly 5) outage).catalog.current
      ((initial (briefly 5) listed).run (briefly 5) outage).now = []
  := by
  obtain ⟨hs, hc⟩ := address_brief "5"
  constructor
  · rw [Settings.ofVariables, hs, hc]
    rfl
  · decide +kernel

end Service

end QuoteFeed
