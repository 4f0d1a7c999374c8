import QuoteFeed.Proofs.Service.Faults
import QuoteFeed.Proofs.Service.Timely

/-!
# The refresh loop

On a run on time the loop that refreshes the catalog fetches at once when the service starts, and
then whenever its timer wakes: after the time between refreshes if the last fetch succeeded, and
after the time to a retry if it failed.  `Service.Wakes` relates the catalog and the next refresh to
the fetches of the run so far, and every action keeps it that leaves the refreshes to the loop
(`wakes_step`).  A timer that can tell the delays from none wakes when they are over
(`Wakes.loops`), and then a snapshot expires exactly when the grace has passed since the first
failure after it.
-/

namespace QuoteFeed

/-- A fetch of the catalog. -/
structure Fetch where
  time : Nat
  answer : Except FetchError (List Market)
  deriving DecidableEq

namespace Fetch

/-- The fetch failed. -/
def failed (f : Fetch) : Bool :=
  match f.answer with
  | .ok _ => false
  | .error _ => true

/-- How long after the fetch the loop fetches again. -/
def delay (env : Environment) (f : Fetch) : Nat :=
  match f.answer with
  | .ok _ => env.settings.catalog.refresh
  | .error _ => env.settings.catalog.retry

/-- When the timer of the loop wakes after the fetch. -/
def wake (env : Environment) (f : Fetch) : Nat :=
  Clock.wake f.time (f.delay env)

/-- The snapshot that the fetch leaves, if it succeeded. -/
def snapshot? (env : Environment) (f : Fetch) : Option Snapshot :=
  match f.answer with
  | .ok ms =>
    some ⟨ms, env.wall f.time,
      f.time + (env.settings.catalog.refresh + env.settings.catalog.grace)⟩
  | .error _ => none

variable {env : Environment} {f : Fetch}

theorem delay_of_ok {ms : List Market} (h : f.answer = .ok ms) :
  f.delay env = env.settings.catalog.refresh
  := by
  rw [delay, h]

theorem delay_of_failed (h : f.failed) :
  f.delay env = env.settings.catalog.retry
  := by
  obtain ⟨t, e | ms⟩ := f
  · rfl
  · contradiction

theorem snapshot?_eq_none (h : f.failed) :
  f.snapshot? env = none
  := by
  obtain ⟨t, e | ms⟩ := f
  · rfl
  · contradiction

end Fetch

namespace Service

/-- The action leaves the refreshes of the catalog to the loop: it asks for none and does not end
the loop. -/
def Action.leavesLoop : Action → Bool
  | .refresh | .beginRefresh | .finishRefresh | .abortRefresh | .stop => false
  | _ => true

variable {env : Environment} {s s' : Service}

/-- The fetch that the loop makes by an action. -/
def fetch? (s : Service) : Action → Option Fetch
  | .refreshTimer => if s.catalog.refreshing then none else some ⟨s.now, s.source.answer⟩
  | _ => none

/-- The fetches of the loop in a run. -/
def fetches (env : Environment) (s : Service) (as : List Action) : List Fetch :=
  s.log env (fun s a => (s.fetch? a).toList) as

/-! ### What an action does to the loop -/

/-- The timer can tell the delays of the loop from none, and what follows from now is within the
clock. -/
structure Paced (env : Environment) (now : Nat) : Prop where
  refresh : Clock.resolution ≤ env.settings.catalog.refresh
  retry : Clock.resolution ≤ env.settings.catalog.retry
  lifetime_lt : now + (env.settings.catalog.refresh + env.settings.catalog.grace) < Clock.limit
  retry_lt : now + env.settings.catalog.retry < Clock.limit

theorem Paced.mono {t t' : Nat} (h : Paced env t') (ht : t ≤ t') :
  Paced env t
  where
  refresh := h.refresh
  retry := h.retry
  lifetime_lt := Nat.lt_of_le_of_lt (Nat.add_le_add_right ht _) h.lifetime_lt
  retry_lt := Nat.lt_of_le_of_lt (Nat.add_le_add_right ht _) h.retry_lt

/-- The timer wakes when the delay after a fetch is over. -/
theorem Paced.wake_eq {f : Fetch} (h : Paced env f.time) :
  f.wake env = f.time + f.delay env
  := by
  have wake {d : Nat} (hd : Clock.resolution ≤ d) (hl : f.time + d < Clock.limit) :
      Clock.wake f.time d = f.time + d := by
    rw [← Nat.max_eq_left hd] at hl
    rw [Clock.wake_eq hl, Nat.max_eq_left hd]
  obtain ⟨t, answer⟩ := f
  cases answer with
  | error e => apply wake h.retry h.retry_lt
  | ok ms =>
    apply wake h.refresh
    have hl := h.lifetime_lt
    change t + env.settings.catalog.refresh < Clock.limit
    dsimp only at hl
    omega

/-- A lifetime that does not lead beyond the clock is not cut off. -/
theorem lifetime_eq_of_lt {t : Nat}
    (h : t + (env.settings.catalog.refresh + env.settings.catalog.grace) < Clock.limit) :
  env.settings.catalog.lifetime = env.settings.catalog.refresh + env.settings.catalog.grace
  := by
  have hle : env.settings.catalog.lifetime ≤
      env.settings.catalog.refresh + env.settings.catalog.grace := Nat.min_le_left _ _
  apply CatalogSettings.lifetime_eq
  omega

/-- The catalog and the loop that refreshes it stay as they are. -/
structure KeepsLoop (s s' : Service) : Prop where
  catalog_eq : s'.catalog = s.catalog
  running_eq : s'.running = s.running
  refreshDue_eq : s'.refreshDue = s.refreshDue
  now_eq : s'.now = s.now

variable (env s)

theorem keepsLoop_syncDemand (ms : List MarketId) :
  s.KeepsLoop (s.syncDemand env ms).2
  := ⟨catalog_syncDemand env s ms, rfl, rfl, now_syncDemand env s ms⟩

theorem keepsLoop_releaseIdle :
  s.KeepsLoop (s.releaseIdle env).2
  := by
  obtain ⟨hc, hr, hd, hn⟩ := keepsLoop_syncDemand env s []
  rw [releaseIdle]
  dsimp only
  split
  · exact ⟨hc, hr, hd, hn⟩
  · exact ⟨hc, hr, hd, hn⟩

theorem keepsLoop_quotations (quote : String) (bases : List String) :
  s.KeepsLoop (s.quotations env quote bases).2
  := by
  rw [quotations]
  dsimp only
  split
  · exact ⟨rfl, rfl, rfl, rfl⟩
  · apply keepsLoop_syncDemand

theorem keepsLoop_pingTick (due : Nat) :
  s.KeepsLoop (s.pingTick env due)
  := by
  have h : (s.pingTick env due).toDesk.setting = s.toDesk.setting := by
    change (s.toStream.firePinger env due).toDesk.setting = s.toDesk.setting
    rw [Stream.firePinger]
    split
    · rfl
    · apply Stream.setting_pingTick
  exact ⟨congrArg Prod.snd h, rfl, rfl, congrArg Prod.fst h⟩

variable {env s}

/-- The loop is changed by its own timer, by a start, and by the time that passes. -/
theorem keepsLoop_step {a : Action} (ha : a.leavesLoop) (hs : a ≠ .start) (hr : a ≠ .refreshTimer)
    (he : ∀ d, a ≠ .elapse d) :
  s.KeepsLoop (s.step env a)
  := by
  cases a with
  | connection c =>
    have h := Stream.setting_act env s.toStream c
    exact ⟨congrArg Prod.snd h, rfl, rfl, congrArg Prod.fst h⟩
  | start => contradiction
  | refreshTimer => contradiction
  | elapse d => apply absurd rfl (he d)
  | quotations quote bases => apply keepsLoop_quotations
  | releaseIdle => apply keepsLoop_releaseIdle
  | sync wanted =>
    have h := congrArg Desk.setting (Stream.books_sync env s.toStream wanted)
    exact ⟨congrArg Prod.snd h, rfl, rfl, congrArg Prod.fst h⟩
  | source source => exact ⟨rfl, rfl, rfl, rfl⟩
  | purge => exact ⟨rfl, rfl, rfl, rfl⟩
  | sweepTimer due =>
    obtain ⟨hc, hr, hd, hn⟩ := keepsLoop_releaseIdle env s
    exact ⟨hc, hr, hd, hn⟩
  | pingTimer due => apply keepsLoop_pingTick
  | _ => contradiction

/-- A start of a service that does not run starts the loop now. -/
theorem start_of_not_running (env : Environment) (h : s.running = false) :
  (s.start env).catalog = s.catalog ∧ (s.start env).running = true ∧
    (s.start env).refreshDue = some s.now ∧ (s.start env).now = s.now
  := by
  have hb := congrArg Desk.setting (Stream.books_start env s.toStream)
  rw [start, if_neg (by simp [h])]
  exact ⟨congrArg Prod.snd hb, rfl, rfl, congrArg Prod.fst hb⟩

/-- A refresh asks the source if none is under way. -/
theorem refresh_of_idle (hi : s.catalog.refreshing = false) :
  s.refresh env =
    let r := { s.toDesk with catalog := { s.catalog with refreshing := true } }.endRefresh env
      s.source.answer
    (r.1, s.countFetch.withDesk r.2)
  := by
  have hb : s.toDesk.beginRefresh =
      (true, { s.toDesk with catalog := { s.catalog with refreshing := true } }) := by
    rw [Desk.beginRefresh, hi]
    rfl
  rw [refresh, hb]
  rfl

/-- When its timer acts, the loop fetches, keeps the snapshot that the fetch leaves, and sets the
timer for the delay that follows it. -/
theorem refreshTick_of_idle (hi : s.catalog.refreshing = false)
    (hl : s.now + (env.settings.catalog.refresh + env.settings.catalog.grace) < Clock.limit) :
  (s.refreshTick env).catalog =
      ⟨((⟨s.now, s.source.answer⟩ : Fetch).snapshot? env).or s.catalog.snapshot, false⟩ ∧
    (s.refreshTick env).running = s.running ∧
    (s.refreshTick env).refreshDue = some ((⟨s.now, s.source.answer⟩ : Fetch).wake env) ∧
    (s.refreshTick env).now = s.now
  := by
  rw [refreshTick, refreshCycle, refresh_of_idle hi]
  cases s.source.answer with
  | error e => exact ⟨rfl, rfl, rfl, rfl⟩
  | ok ms =>
    have hx : Clock.after? s.now env.settings.catalog.lifetime =
        some (s.now + (env.settings.catalog.refresh + env.settings.catalog.grace)) := by
      rw [lifetime_eq_of_lt hl, Clock.after?, if_pos hl]
    simp only [Desk.endRefresh, hx]
    exact ⟨rfl, rfl, rfl, rfl⟩

/-- Of the intervals that variables describe, those that are positive are whole seconds, and the
timer can tell them from none. -/
theorem resolution_le_of_accepted {vars : Variables} {settings : Settings}
    (h : Settings.ofVariables vars = .ok settings) :
  (0 < settings.catalog.refresh → Clock.resolution ≤ settings.catalog.refresh) ∧
    (0 < settings.catalog.retry → Clock.resolution ≤ settings.catalog.retry)
  := by
  have le_seconds {d : Nat} (hd : ∃ n, d = Duration.seconds n) (hp : 0 < d) :
      Clock.resolution ≤ d := by
    obtain ⟨n, rfl⟩ := hd
    rw [Duration.seconds] at hp ⊢
    rw [Clock.resolution, Duration.millis]
    omega
  have ha := Settings.ofVariables_eq_ok_iff.1 h
  have hr := ha.exists_seconds (f := .refresh) (fun _ => rfl) rfl
  have hr' := ha.exists_seconds (f := .retry) (fun _ => rfl) rfl
  exact ⟨le_seconds hr, le_seconds hr'⟩

/-! ### The loop follows the fetches -/

/-- When the loop fetches next: when its timer wakes after the last fetch, and at once if there was
none. -/
def nextWake? (env : Environment) (s : Service) (history : List Fetch) : Option Nat :=
  match history.getLast? with
  | some f => some (f.wake env)
  | none => if s.running then some s.now else none

/-- The loop after its fetches so far, as its timer woke it. -/
structure Wakes (env : Environment) (history : List Fetch) (s : Service) : Prop where
  /-- No refresh is under way. -/
  idle : s.catalog.refreshing = false
  /-- The loop is not stopped. -/
  running : history ≠ [] → s.running
  /-- Every fetch is made when the timer wakes after the one before. -/
  spaced : history.IsChain fun f g => g.time = f.wake env
  past : ∀ f ∈ history, f.time ≤ s.now
  due_eq : s.refreshDue = s.nextWake? env history
  le_due : ∀ due ∈ s.refreshDue, s.now ≤ due
  /-- The snapshot is that of the last fetch that succeeded. -/
  snapshot_eq : s.catalog.snapshot = (history.filterMap (·.snapshot? env)).getLast?

variable {history : List Fetch}

theorem Wakes.congr (h : Wakes env history s) (hk : s.KeepsLoop s') :
  Wakes env history s'
  where
  idle := by rw [hk.catalog_eq, h.idle]
  running hn := by rw [hk.running_eq, h.running hn]
  spaced := h.spaced
  past := by
    rw [hk.now_eq]
    apply h.past
  due_eq := by rw [hk.refreshDue_eq, h.due_eq, nextWake?, nextWake?, hk.running_eq, hk.now_eq]
  le_due := by
    rw [hk.refreshDue_eq, hk.now_eq]
    apply h.le_due
  snapshot_eq := by rw [hk.catalog_eq, h.snapshot_eq]

/-- A start makes the loop fetch at once. -/
theorem wakes_start (h : Wakes env history s) :
  Wakes env history (s.start env)
  := by
  cases hr : s.running with
  | true =>
    rw [start, if_pos hr]
    apply h
  | false =>
    obtain ⟨hc, hr', hd, hn⟩ := start_of_not_running env hr
    obtain rfl : history = [] := by
      by_contra hne
      rw [h.running hne] at hr
      contradiction
    constructor
    · rw [hc, h.idle]
    · intro hne
      contradiction
    · apply h.spaced
    · intro f hf
      contradiction
    · rw [hd, nextWake?, hr', hn]
      rfl
    · rw [hd, hn]
      rintro due e
      exact Nat.le_of_eq (Option.some.inj e)
    · rw [hc, h.snapshot_eq]

/-- Time passes until the next fetch. -/
theorem wakes_elapse (h : Wakes env history s) {d : Nat} (hp : s.Prompt (.elapse d)) :
  Wakes env history (s.atTime (s.now + d))
  where
  idle := h.idle
  running := h.running
  spaced := h.spaced
  past f hf := Nat.le_trans (h.past f hf) (Nat.le_add_right _ _)
  due_eq := by
    apply h.due_eq.trans
    rw [nextWake?, nextWake?]
    cases hl : history.getLast? with
    | some f => rfl
    | none =>
      cases hr : s.running with
      | false => simp [atTime, withDesk, hr]
      | true =>
        -- the first fetch is due now, so that no time passes
        have hd : s.refreshDue = some s.now := by
          rw [h.due_eq, nextWake?, hl, hr]
          rfl
        have hd := (forall_nextDue.1 hp).1 s.now hd
        have hd : d = 0 := by omega
        simp [atTime, withDesk, hr, hd]
  le_due := (forall_nextDue.1 hp).1
  snapshot_eq := h.snapshot_eq

/-- When its timer acts, the loop fetches. -/
theorem wakes_refreshTick
    (hl : s.now + (env.settings.catalog.refresh + env.settings.catalog.grace) < Clock.limit)
    (h : Wakes env history s) (hd : s.refreshDue = some s.now) :
  Wakes env (history ++ [⟨s.now, s.source.answer⟩]) (s.refreshTick env)
  := by
  obtain ⟨hc, hr, hd', hn⟩ := refreshTick_of_idle h.idle hl
  have due_eq := h.due_eq
  rw [hd, nextWake?] at due_eq
  constructor
  · rw [hc]
  · intro _
    rw [hr]
    by_cases hne : history = []
    · by_contra hr
      simp [hne, hr] at due_eq
    · apply h.running hne
  · rw [List.isChain_append]
    refine ⟨h.spaced, List.isChain_singleton _, ?_⟩
    intro f hf g hg
    obtain rfl := Option.some.inj hg
    rw [hf] at due_eq
    apply Option.some.inj due_eq
  · rw [hn, List.forall_mem_append, List.forall_mem_singleton]
    exact ⟨h.past, Nat.le_refl _⟩
  · rw [hd', nextWake?, List.getLast?_append]
    rfl
  · rw [hd', hn]
    rintro due e
    obtain rfl := Option.some.inj e
    apply Nat.le_of_lt (Clock.lt_wake _ _)
  · rw [hc, List.filterMap_append, List.getLast?_append, h.snapshot_eq]
    cases hf : (⟨s.now, s.source.answer⟩ : Fetch).snapshot? env with
    | none => simp [hf]
    | some snapshot => simp [hf]

/-- Every action that leaves the refreshes to the loop and comes at its time keeps the loop. -/
theorem wakes_step
    (hlt : s.now + (env.settings.catalog.refresh + env.settings.catalog.grace) < Clock.limit)
    (h : Wakes env history s) {a : Action} (hl : a.leavesLoop) (ha : s.Prompt a) :
  Wakes env (history ++ (s.fetch? a).toList) (s.step env a)
  := by
  by_cases hr : a = .refreshTimer
  · subst hr
    rw [fetch?, h.idle]
    apply wakes_refreshTick hlt h ha
  · have hf : s.fetch? a = none := by
      cases a with
      | refreshTimer => contradiction
      | _ => rfl
    rw [hf, Option.toList_none, List.append_nil]
    by_cases hs : a = .start
    · subst hs
      apply wakes_start h
    · by_cases he : ∃ d, a = .elapse d
      · obtain ⟨d, rfl⟩ := he
        apply wakes_elapse h ha
      · apply h.congr
        apply keepsLoop_step hl hs hr fun d e => he ⟨d, e⟩

theorem wakes_run (env : Environment) (markets : List Market) (as : List Action)
    (hl : ∀ a ∈ as, a.leavesLoop) (ht : (initial env markets).Timely env as)
    (hlt : ((initial env markets).run env as).now +
      (env.settings.catalog.refresh + env.settings.catalog.grace) < Clock.limit) :
  Wakes env ((initial env markets).fetches env as) ((initial env markets).run env as)
  := by
  induction as using List.reverseRecOn with
  | nil =>
    constructor
    · rfl
    · intro hne
      contradiction
    · apply List.IsChain.nil
    · intro f hf
      contradiction
    · rfl
    · intro due e
      contradiction
    · rfl
  | append_singleton as a ih =>
    rw [run_concat] at hlt ⊢
    rw [fetches, log_concat]
    rw [List.forall_mem_append, List.forall_mem_singleton] at hl
    obtain ⟨ht, ha⟩ := timely_concat.1 ht
    have hlt := Nat.lt_of_le_of_lt (Nat.add_le_add_right (now_step env _ a) _) hlt
    apply wakes_step hlt (ih hl.1 ht hlt) hl.2 ha

/-! ### A timer that can tell the delays from none -/

/-- When the loop fetches next: after the delay that follows the last fetch, and at once if there
was none. -/
def nextFetch? (env : Environment) (s : Service) (history : List Fetch) : Option Nat :=
  match history.getLast? with
  | some f => some (f.time + f.delay env)
  | none => if s.running then some s.now else none

/-- The loop after its fetches so far. -/
structure Loops (env : Environment) (history : List Fetch) (s : Service) : Prop where
  /-- No refresh is under way. -/
  idle : s.catalog.refreshing = false
  /-- The loop is not stopped. -/
  running : history ≠ [] → s.running
  /-- Every fetch follows the one before by its delay. -/
  spaced : history.IsChain fun f g => g.time = f.time + f.delay env
  due_eq : s.refreshDue = s.nextFetch? env history
  le_due : ∀ due ∈ s.refreshDue, s.now ≤ due
  /-- The snapshot is that of the last fetch that succeeded. -/
  snapshot_eq : s.catalog.snapshot = (history.filterMap (·.snapshot? env)).getLast?

theorem Wakes.loops (h : Wakes env history s) (hp : Paced env s.now) :
  Loops env history s
  := by
  have hw {f : Fetch} (hf : f ∈ history) : f.wake env = f.time + f.delay env :=
    (hp.mono (h.past f hf)).wake_eq
  constructor
  · apply h.idle
  · apply h.running
  · apply h.spaced.imp_of_mem_imp
    intro f g hf _ e
    rw [e, hw hf]
  · rw [h.due_eq, nextWake?, nextFetch?]
    cases hl : history.getLast? with
    | none => rfl
    | some f => exact congrArg some (hw (List.mem_of_getLast? hl))
  · apply h.le_due
  · apply h.snapshot_eq

theorem loops_run (env : Environment) (markets : List Market) (as : List Action)
    (hl : ∀ a ∈ as, a.leavesLoop) (ht : (initial env markets).Timely env as)
    (hp : Paced env ((initial env markets).run env as).now) :
  Loops env ((initial env markets).fetches env as) ((initial env markets).run env as)
  := (wakes_run env markets as hl ht hp.lifetime_lt).loops hp

/-! ### What the catalog shows -/

/-- The catalog shows the list of the last success until its lifetime is over. -/
theorem current_eq_of_snapshot_eq
    (h : s.catalog.snapshot = (history.filterMap (·.snapshot? env)).getLast?)
    {earlier failures : List Fetch} {f : Fetch} {ms : List Market}
    (hh : history = earlier ++ f :: failures) (hf : f.answer = .ok ms)
    (hfail : ∀ g ∈ failures, g.failed) :
  s.catalog.current s.now =
    if s.now < f.time + (env.settings.catalog.refresh + env.settings.catalog.grace) then ms else []
  := by
  have hnone : failures.filterMap (·.snapshot? env) = [] := by
    rw [List.filterMap_eq_nil_iff]
    exact fun g hg => Fetch.snapshot?_eq_none (hfail g hg)
  have hs : s.catalog.snapshot = f.snapshot? env := by
    rw [h, hh, List.filterMap_append, List.filterMap_cons, hnone, Fetch.snapshot?, hf]
    simp
  rw [Catalog.current, Catalog.live?, hs, Fetch.snapshot?, hf, Option.filter_some]
  simp only [Snapshot.isLive, decide_eq_true_eq]
  split
  · rfl
  · rfl

/-- After the first success the catalog shows the list of the last one, until the grace has passed
since the first failure after it. -/
theorem Loops.current_eq (h : Loops env history s) (hg : 0 < env.settings.catalog.grace)
    {earlier failures : List Fetch} {f : Fetch} {ms : List Market}
    (hh : history = earlier ++ f :: failures) (hf : f.answer = .ok ms)
    (hfail : ∀ g ∈ failures, g.failed) :
  s.catalog.current s.now =
    if ∃ g ∈ failures.head?, g.time + env.settings.catalog.grace ≤ s.now then [] else ms
  := by
  have hdelay : f.delay env = env.settings.catalog.refresh := Fetch.delay_of_ok hf
  rw [current_eq_of_snapshot_eq h.snapshot_eq hh hf hfail]
  cases failures with
  | nil =>
    -- until the first failure the next fetch is due before the snapshot expires
    have hdue : s.refreshDue = some (f.time + f.delay env) := by
      rw [h.due_eq, nextFetch?, hh, List.getLast?_append]
      rfl
    have hle := h.le_due _ hdue
    rw [hdelay] at hle
    rw [if_pos (by omega), if_neg (by simp)]
  | cons g failures =>
    have hg : g.time = f.time + env.settings.catalog.refresh := by
      have hs := h.spaced
      rw [hh, List.isChain_append_cons_cons] at hs
      rw [hs.2.1, hdelay]
    by_cases hl : s.now < f.time + (env.settings.catalog.refresh + env.settings.catalog.grace)
    · rw [if_pos hl, if_neg]
      rintro ⟨g', e, hle⟩
      obtain rfl := Option.some.inj e
      omega
    · rw [if_neg hl, if_pos]
      use g, rfl
      omega

/-- Before the first success the catalog is empty. -/
theorem Loops.current_eq_nil (h : Loops env history s) (hfail : ∀ f ∈ history, f.failed) :
  s.catalog.current s.now = []
  := by
  have hs : s.catalog.snapshot = none := by
    rw [h.snapshot_eq, List.filterMap_eq_nil_iff.2 fun f hf => Fetch.snapshot?_eq_none (hfail f hf)]
    rfl
  rw [Catalog.current, Catalog.live?, hs]
  rfl

/-- On every run on time in which the service is not stopped and the catalog is refreshed by the
loop alone, a fetch follows a success by the time between refreshes and a failure by the time to a
retry, and the first is made when the service starts.  The catalog is empty before the first
success.  From then on it shows the list of the last fetch that succeeded, unless the grace has
passed since the first failure after it: then it is empty until the next success.

The intervals must be such that a timer can tell them from none, as all positive ones are that
variables describe (`resolution_le_of_accepted`). -/
theorem catalog_after_run (env : Environment) (markets : List Market) (as : List Action)
    (hl : ∀ a ∈ as, a.leavesLoop) (ht : (initial env markets).Timely env as)
    (hr : Clock.resolution ≤ env.settings.catalog.refresh)
    (hr' : Clock.resolution ≤ env.settings.catalog.retry)
    (hg : 0 < env.settings.catalog.grace)
    (hlt : ((initial env markets).run env as).now +
      (env.settings.catalog.refresh + env.settings.catalog.grace) < Clock.limit)
    (hlt' : ((initial env markets).run env as).now + env.settings.catalog.retry < Clock.limit) :
  let s := (initial env markets).run env as
  let fetches := (initial env markets).fetches env as
  fetches.IsChain (fun f g => g.time = f.time + f.delay env) ∧
    (∀ f ∈ fetches.getLast?, s.refreshDue = some (f.time + f.delay env) ∧
      s.now ≤ f.time + f.delay env) ∧
    (fetches = [] → s.running → s.refreshDue = some s.now) ∧
    ((∀ f ∈ fetches, f.failed) → s.catalog.current s.now = []) ∧
    ∀ earlier f failures ms, fetches = earlier ++ f :: failures → f.answer = .ok ms →
      (∀ g ∈ failures, g.failed) →
        s.catalog.current s.now =
          if ∃ g ∈ failures.head?, g.time + env.settings.catalog.grace ≤ s.now then [] else ms
  := by
  intro s fetches
  have h : Loops env fetches s := loops_run env markets as hl ht ⟨hr, hr', hlt, hlt'⟩
  refine ⟨h.spaced, ?_, ?_, h.current_eq_nil, ?_⟩
  · intro f hf
    have hd : s.refreshDue = some (f.time + f.delay env) := by
      rw [h.due_eq, nextFetch?, hf]
    use hd
    apply h.le_due _ hd
  · intro hn hrun
    rw [h.due_eq, nextFetch?, hn, hrun]
    rfl
  · intro earlier f failures ms hh hf hfail
    apply h.current_eq hg hh hf hfail

/-- A run of an hour, with a release of idle markets every five minutes, after which the source
fails at two fetches. -/
def failingHour : List Action :=
  [.start, .refreshTimer] ++
    (List.range 12).flatMap (fun i =>
      [.elapse (Duration.seconds 300), .sweepTimer (Duration.seconds (300 * (i + 1)))]) ++
    [.source ⟨[], true, 1⟩, .refreshTimer, .elapse (Duration.seconds 10), .refreshTimer]

/-- The catalog still shows the list of the first fetch. -/
theorem catalog_after_failing_hour :
  (∀ a ∈ failingHour, a.leavesLoop) ∧ standard.Timely .standard failingHour ∧
    (standard.run .standard failingHour).catalog.current
      (standard.run .standard failingHour).now = listed
  := by
  have hl : ∀ a ∈ failingHour, a.leavesLoop := by decide +kernel
  have ht : standard.Timely .standard failingHour := by decide +kernel
  have hr : Clock.resolution ≤ Environment.standard.settings.catalog.refresh := by decide +kernel
  have hr' : Clock.resolution ≤ Environment.standard.settings.catalog.retry := by decide +kernel
  have hg : 0 < Environment.standard.settings.catalog.grace := by decide +kernel
  have hlt : (standard.run .standard failingHour).now +
      (Environment.standard.settings.catalog.refresh +
        Environment.standard.settings.catalog.grace) < Clock.limit := by decide +kernel
  have hlt' : (standard.run .standard failingHour).now +
      Environment.standard.settings.catalog.retry < Clock.limit := by decide +kernel
  have hf : standard.fetches .standard failingHour =
      [] ++ ⟨0, .ok listed⟩ :: [⟨Duration.seconds 3600, .error Source.failure⟩,
        ⟨Duration.seconds 3610, .error Source.failure⟩] := by decide +kernel
  have hnow : ¬ ∃ g ∈ [(⟨Duration.seconds 3600, .error Source.failure⟩ : Fetch),
      ⟨Duration.seconds 3610, .error Source.failure⟩].head?,
      g.time + Environment.standard.settings.catalog.grace ≤
        (standard.run .standard failingHour).now := by decide +kernel
  refine ⟨hl, ht, ?_⟩
  -- unless both sides read the same, unification evaluates the run
  unfold standard at ht hlt hlt' hf hnow ⊢
  have h := (catalog_after_run _ _ _ hl ht hr hr' hg hlt hlt').2.2.2.2 _ _ _ _ hf rfl (by decide)
  exact h.trans (if_neg hnow)

end Service

end QuoteFeed
