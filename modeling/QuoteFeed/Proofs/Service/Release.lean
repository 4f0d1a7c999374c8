import QuoteFeed.Proofs.Service.Interest
import QuoteFeed.Proofs.Service.Quotes
import QuoteFeed.Proofs.Service.Timely
import QuoteFeed.Proofs.Stream.Interleaving

/-!
# The release of idle markets

While the service runs, the release of idle markets acts once per demand window, counted from the
start.  Each time, and at every query in between, only markets stay subscribed that were requested
within the window.  So between two acts every market that is subscribed was requested at most one
window before the earlier of them (`Service.Sweeps`), and on a run on time no market outlives its
last request, or the start of the service, by more than two windows (`released_in_time`).

Nothing else adds a market: the end of a session forgets them all, and the next session announces
only what was subscribed since (`Stream.mem_subscribed_act`).
-/

namespace QuoteFeed

/-- An act that is no call of a synchronisation adds no market of interest. -/
theorem Stream.mem_subscribed_act {env : Environment} {s : Stream} {a : Act} (ha : a.call? = none)
    {m : MarketId} (hm : m ∈ (s.act env a).subscribed) :
  m ∈ s.subscribed
  := by
  rw [subscribed_act, ha] at hm
  split at hm
  · apply absurd hm (IdSet.not_mem_empty m)
  · apply hm

namespace Service

/-- The action leaves the subscriptions to the demand: queries and releases of idle markets alone
change them. -/
def Action.leavesInterest : Action → Bool
  | .connection a => a.call?.isNone
  | .sync _ => false
  | _ => true

/-- When an action starts the service, which does not run yet. -/
def start? (s : Service) : Action → Option Nat
  | .start => if s.running then none else some s.now
  | _ => none

/-- The times at which a run starts the service. -/
def starts (env : Environment) (s : Service) (as : List Action) : List Nat :=
  s.log env (fun s a => (s.start? a).toList) as

variable {env : Environment} {s s' : Service}

/-- The last start of a run is that of its last action, or else of the run before. -/
theorem getLast?_starts_concat (as : List Action) (a : Action) :
  (s.starts env (as ++ [a])).getLast? =
    ((s.run env as).start? a).or (s.starts env as).getLast?
  := by
  rw [starts, log_concat, List.getLast?_append]
  cases (s.run env as).start? a with
  | none => rfl
  | some t => rfl

/-! ### What leaves the release of idle markets alone -/

/-- The release of idle markets is due when it was, and no market of interest is new. -/
structure KeepsSweep (s s' : Service) : Prop where
  running_eq : s'.running = s.running
  sweepDue_eq : s'.sweepDue = s.sweepDue
  now_eq : s'.now = s.now
  mem_subscribed : ∀ m ∈ s'.subscribed, m ∈ s.subscribed

theorem KeepsDemand.keepsSweep (h : s.KeepsDemand s')
    (hs : s'.running = s.running ∧ s'.sweepDue = s.sweepDue ∧ s'.subscribed = s.subscribed) :
  s.KeepsSweep s'
  := by
  refine ⟨hs.1, hs.2.1, h.2, ?_⟩
  rw [hs.2.2]
  exact fun _ hm => hm

variable (env s)

theorem keepsSweep_connection {a : Stream.Act} (ha : a.call? = none) :
  s.KeepsSweep (s.onStream (·.act env a))
  := ⟨rfl, rfl, (keepsDemand_connection env s a).2, fun _ hm => Stream.mem_subscribed_act ha hm⟩

theorem keepsSweep_refresh :
  s.KeepsSweep (s.refresh env).2
  := by
  apply (keepsDemand_refresh env s).keepsSweep
  rw [refresh]
  dsimp only
  split
  · exact ⟨rfl, rfl, rfl⟩
  · exact ⟨rfl, rfl, rfl⟩

theorem keepsSweep_refreshTick :
  s.KeepsSweep (s.refreshTick env)
  := by
  have h : s.KeepsSweep (s.refreshCycle env).2 := by
    have h := keepsSweep_refresh env s
    rw [refreshCycle]
    split
    · rename_i e
      rw [e] at h
      apply h
    · rename_i e
      rw [e] at h
      apply h
    · rename_i e
      rw [e] at h
      apply h
  exact ⟨h.running_eq, h.sweepDue_eq, h.now_eq, h.mem_subscribed⟩

theorem keepsSweep_beginRefresh :
  s.KeepsSweep s.beginRefresh
  := by
  apply (keepsDemand_beginRefresh s).keepsSweep
  rw [beginRefresh]
  dsimp only
  split
  · exact ⟨rfl, rfl, rfl⟩
  · exact ⟨rfl, rfl, rfl⟩

theorem keepsSweep_finishRefresh :
  s.KeepsSweep (s.finishRefresh env).2
  := by
  apply (keepsDemand_finishRefresh env s).keepsSweep
  rw [finishRefresh]
  dsimp only
  split
  · exact ⟨rfl, rfl, rfl⟩
  · exact ⟨rfl, rfl, rfl⟩

theorem keepsSweep_abortRefresh :
  s.KeepsSweep s.abortRefresh
  := by
  apply (keepsDemand_abortRefresh s).keepsSweep
  rw [abortRefresh]
  split
  · exact ⟨rfl, rfl, rfl⟩
  · exact ⟨rfl, rfl, rfl⟩
  · exact ⟨rfl, rfl, rfl⟩

theorem keepsSweep_pingTick (due : Nat) :
  s.KeepsSweep (s.pingTick env due)
  := by
  refine ⟨rfl, rfl, (keepsDemand_pingTick env s due).2, ?_⟩
  intro m hm
  change m ∈ (s.toStream.firePinger env due).subscribed at hm
  rw [Stream.firePinger] at hm
  split at hm
  · apply hm
  · rename_i p _
    exact Stream.mem_subscribed_act (a := .ping p.generation due) rfl hm

variable {env s}

/-- What happens between two synchronisations, other than a start, a stop and the passing of time,
leaves the release of idle markets alone. -/
theorem keepsSweep_step {a : Action} (ha : a.leavesInterest) (hs : ¬ s.Synchronises a)
    (hstart : a ≠ .start) (hstop : a ≠ .stop) (helapse : ∀ d, a ≠ .elapse d) :
  s.KeepsSweep (s.step env a)
  := by
  cases a with
  | connection a => apply keepsSweep_connection env s (Option.isNone_iff_eq_none.1 ha)
  | start => contradiction
  | stop => contradiction
  | quotations quote bases =>
    have hr : s.resolve quote bases = [] := by
      by_contra h
      exact hs h
    rw [step, quotations, hr]
    exact ⟨rfl, rfl, rfl, fun _ hm => hm⟩
  | releaseIdle => exact absurd trivial hs
  | sync wanted => contradiction
  | refresh => apply keepsSweep_refresh
  | beginRefresh => apply keepsSweep_beginRefresh
  | finishRefresh => apply keepsSweep_finishRefresh
  | abortRefresh => apply keepsSweep_abortRefresh
  | source source => exact ⟨rfl, rfl, rfl, fun _ hm => hm⟩
  | purge => exact ⟨rfl, rfl, rfl, fun _ hm => hm⟩
  | elapse d => exact absurd rfl (helapse d)
  | refreshTimer => apply keepsSweep_refreshTick
  | sweepTimer due => exact absurd trivial hs
  | pingTimer due => apply keepsSweep_pingTick

/-! ### Between two acts of the release -/

/-- The instant at which the release acts next comes at most one window from now, and every market
of interest was requested at most two windows before it, or the service was started one window
before it. -/
structure Sweeps (env : Environment) (history : List Demand.Request) (started due : Nat)
    (s : Service) : Prop where
  sweepDue_eq : s.sweepDue = some due
  now_le : s.now ≤ due
  due_le : due ≤ s.now + env.settings.quotes.demandWindow
  requested : ∀ m ∈ s.subscribed, ∃ r ∈ history, r.market = m ∧
    due ≤ max (r.time + 2 * env.settings.quotes.demandWindow)
      (started + env.settings.quotes.demandWindow)

/-- Every market of interest was requested, and while the service runs, the release of idle markets
acts once per window. -/
structure Supervised (env : Environment) (history : List Demand.Request) (started : Option Nat)
    (s : Service) : Prop where
  requested : ∀ m ∈ s.subscribed, ∃ r ∈ history, r.market = m
  sweeps : s.running → ∃ t due, started = some t ∧ s.Sweeps env history t due

variable {history : List Demand.Request} {started : Option Nat}

/-- What leaves the release alone keeps the supervision. -/
theorem Supervised.keep (h : Supervised env history started s) (hk : s.KeepsSweep s') :
  Supervised env history started s'
  where
  requested m hm := h.requested m (hk.mem_subscribed m hm)
  sweeps hr := by
    rw [hk.running_eq] at hr
    obtain ⟨t, due, ht, hs⟩ := h.sweeps hr
    use t, due, ht
    constructor
    · rw [hk.sweepDue_eq, hs.sweepDue_eq]
    · rw [hk.now_eq]
      apply hs.now_le
    · rw [hk.now_eq]
      apply hs.due_le
    · intro m hm
      apply hs.requested m (hk.mem_subscribed m hm)

/-- What is wanted was requested within the window. -/
theorem exists_request_of_wanted (ht : Tracks env history s) (hw : s.subscribed = s.wanted)
    {m : MarketId} (hm : m ∈ s.subscribed) :
  ∃ r ∈ history, r.market = m ∧ s.now ≤ r.time + env.settings.quotes.demandWindow
  := by
  rw [hw, ht.mem_wanted] at hm
  apply hm.1

/-- A synchronisation at most one window before the next act of the release leaves only markets
that were requested at most two windows before that act. -/
theorem sweeps_of_wanted (ht : Tracks env history s) (hw : s.subscribed = s.wanted) {due : Nat}
    (hd : s.sweepDue = some due) (hle : s.now ≤ due)
    (hge : due ≤ s.now + env.settings.quotes.demandWindow) (t : Nat) :
  s.Sweeps env history t due
  where
  sweepDue_eq := hd
  now_le := hle
  due_le := hge
  requested m hm := by
    obtain ⟨r, hr, e, hn⟩ := exists_request_of_wanted ht hw hm
    use r, hr, e
    omega

/-- More requests do no harm. -/
theorem Supervised.mono {history' : List Demand.Request} (h : Supervised env history started s)
    (hs : ∀ r ∈ history, r ∈ history') :
  Supervised env history' started s
  where
  requested m hm := by
    obtain ⟨r, hr, e⟩ := h.requested m hm
    use r, hs r hr
  sweeps hr := by
    obtain ⟨t, due, e, hd⟩ := h.sweeps hr
    use t, due, e
    constructor
    · apply hd.sweepDue_eq
    · apply hd.now_le
    · apply hd.due_le
    · intro m hm
      obtain ⟨r, hr, hm⟩ := hd.requested m hm
      use r, hs r hr

/-! ### Every action is supervised -/

/-- A start lets the release act one window later. -/
theorem supervised_start (h : Supervised env history started s)
    (hw : 0 < env.settings.quotes.demandWindow)
    (hl : s.now + env.settings.quotes.demandWindow < Clock.limit) :
  Supervised env history ((s.start? .start).or started) (s.start env)
  := by
  cases hr : s.running with
  | true =>
    rw [start?, if_pos hr, Option.none_or, start, if_pos hr]
    apply h
  | false =>
    have hn : ¬ s.running = true := by simp [hr]
    have hsub : ∀ m ∈ (s.start env).subscribed, m ∈ s.subscribed := by
      rw [start, if_neg hn]
      exact fun m hm => Stream.mem_subscribed_act (a := .start) rfl hm
    have hd : (s.start env).sweepDue = some (s.now + env.settings.quotes.demandWindow) := by
      have hf : Clock.firstTick? s.now env.settings.quotes.demandWindow =
          some (s.now + env.settings.quotes.demandWindow) := by
        rw [Clock.firstTick?, if_neg (Nat.ne_of_gt hw), Clock.after?, if_pos hl]
      rw [start, if_neg hn]
      apply hf
    rw [start?, if_neg hn, Option.some_or]
    constructor
    · intro m hm
      apply h.requested m (hsub m hm)
    · intro _
      use s.now, s.now + env.settings.quotes.demandWindow, rfl
      constructor
      · apply hd
      · rw [(keepsDemand_start env s).2]
        apply Nat.le_add_right
      · rw [(keepsDemand_start env s).2]
      · intro m hm
        obtain ⟨r, hr, e⟩ := h.requested m (hsub m hm)
        use r, hr, e
        apply Nat.le_max_right

/-- A stop ends the supervision, and no market is new. -/
theorem supervised_stop (h : Supervised env history started s) :
  Supervised env history started (s.stop env)
  := by
  have hsub : ∀ m ∈ (s.stop env).subscribed, m ∈ s.subscribed := by
    rw [stop]
    split
    · exact fun m hm => Stream.mem_subscribed_act (a := .stop) rfl hm
    · exact fun m hm => Stream.mem_subscribed_act (a := .stop) rfl hm
  have hr : (s.stop env).running = false := by
    rw [stop]
    split
    · rfl
    · rfl
  constructor
  · intro m hm
    apply h.requested m (hsub m hm)
  · rw [hr]
    intro hr
    contradiction

/-- Time does not pass beyond the next act of the release. -/
theorem supervised_elapse (h : Supervised env history started s) {d : Nat}
    (hp : s.Prompt (.elapse d)) :
  Supervised env history started (s.atTime (s.now + d))
  where
  requested := h.requested
  sweeps hr := by
    obtain ⟨t, due, e, hs⟩ := h.sweeps hr
    use t, due, e
    constructor
    · apply hs.sweepDue_eq
    · apply (forall_nextDue.1 hp).2.1 due hs.sweepDue_eq
    · apply Nat.le_trans hs.due_le
      apply Nat.add_le_add_right
      exact Nat.le_add_right s.now d
    · apply hs.requested

/-- A synchronisation with the demand keeps the supervision. -/
theorem supervised_sync (h : Supervised env history started s) {history' : List Demand.Request}
    (ht : Tracks env history' s') (hw : s'.subscribed = s'.wanted) (hr : s'.running = s.running)
    (hd : s'.sweepDue = s.sweepDue) (hn : s'.now = s.now) :
  Supervised env history' started s'
  where
  requested m hm := by
    obtain ⟨r, hr, e, -⟩ := exists_request_of_wanted ht hw hm
    use r, hr
  sweeps h' := by
    obtain ⟨t, due, e, hs⟩ := h.sweeps (hr ▸ h')
    use t, due, e
    apply sweeps_of_wanted ht hw
    · rw [hd, hs.sweepDue_eq]
    · rw [hn]
      apply hs.now_le
    · rw [hn]
      apply hs.due_le

theorem supervised_quotations (h : Supervised env history started s) {quote : String}
    {bases : List String} (hs : s.Synchronises (.quotations quote bases))
    (ht : Tracks env (history ++ s.requested (.quotations quote bases))
      (s.quotations env quote bases).2) :
  Supervised env (history ++ s.requested (.quotations quote bases)) started
    (s.quotations env quote bases).2
  := by
  have hk : (s.quotations env quote bases).2.running = s.running ∧
      (s.quotations env quote bases).2.sweepDue = s.sweepDue := by
    rw [quotations]
    dsimp only
    split
    · exact ⟨rfl, rfl⟩
    · exact ⟨rfl, rfl⟩
  apply supervised_sync h ht (subscribed_step hs) hk.1 hk.2
  apply (internalRun_quotations env s quote bases).keeps.1

theorem keeps_releaseIdle (env : Environment) (s : Service) :
  (s.releaseIdle env).2.running = s.running ∧ (s.releaseIdle env).2.sweepDue = s.sweepDue ∧
    (s.releaseIdle env).2.now = s.now
  := by
  have hn := (internalRun_releaseIdle env s).keeps.1
  refine ⟨?_, ?_, hn⟩
  · rw [releaseIdle]
    dsimp only
    split
    · rfl
    · rfl
  · rw [releaseIdle]
    dsimp only
    split
    · rfl
    · rfl

/-- The release acts when it is due, and is due again one window later. -/
theorem supervised_sweepTick (h : Supervised env history started s)
    (ht : Tracks env history (s.sweepTick env s.now))
    (hw : 0 < env.settings.quotes.demandWindow)
    (hl : s.now + env.settings.quotes.demandWindow < Clock.limit) :
  Supervised env history started (s.sweepTick env s.now)
  := by
  obtain ⟨hr, -, hn⟩ := keeps_releaseIdle env s
  have hwanted : (s.sweepTick env s.now).subscribed = (s.sweepTick env s.now).wanted :=
    subscribed_step (a := .sweepTimer s.now) trivial
  have hd : (s.sweepTick env s.now).sweepDue =
      some (s.now + env.settings.quotes.demandWindow) := by
    have hnext : Clock.nextTick s.now s.now (max env.settings.quotes.demandWindow 1) =
        s.now + env.settings.quotes.demandWindow := by
      rw [Nat.max_eq_left hw, Clock.nextTick, if_neg (by omega), Clock.after?, if_pos hl]
      rfl
    rw [sweepTick, hnext]
  have hn' : (s.sweepTick env s.now).now = s.now := hn
  constructor
  · intro m hm
    obtain ⟨r, hr, e, -⟩ := exists_request_of_wanted ht hwanted hm
    use r, hr
  · intro h'
    obtain ⟨t, -, e, -⟩ := h.sweeps (hr ▸ h')
    use t, s.now + env.settings.quotes.demandWindow, e
    apply sweeps_of_wanted ht hwanted hd
    · rw [hn']
      apply Nat.le_add_right
    · rw [hn']

/-- Every action on time that leaves the subscriptions to the demand is supervised. -/
theorem supervised_step (h : Supervised env history started s) (ht : Tracks env history s)
    {a : Action} (ha : a.leavesInterest) (hp : s.Prompt a)
    (hw : 0 < env.settings.quotes.demandWindow)
    (hl : s.now + env.settings.quotes.demandWindow < Clock.limit) :
  Supervised env (history ++ s.requested a) ((s.start? a).or started) (s.step env a)
  := by
  have ht' := tracks_step ht a
  have quiet {s' : Service} (hs : Supervised env history started s') :
      Supervised env (history ++ s.requested a) started s' :=
    hs.mono fun _ hr => List.mem_append_left _ hr
  by_cases hs : s.Synchronises a
  · cases a with
    | quotations quote bases => exact supervised_quotations h hs ht'
    | releaseIdle =>
      obtain ⟨hr, hd, hn⟩ := keeps_releaseIdle env s
      exact supervised_sync h ht' (subscribed_step hs) hr hd hn
    | sweepTimer due =>
      obtain ⟨-, rfl⟩ := hp
      have hq : s.requested (.sweepTimer s.now) = [] := rfl
      rw [hq, List.append_nil] at ht' ⊢
      exact supervised_sweepTick h ht' hw hl
    | _ => contradiction
  · cases a with
    | start => exact (supervised_start h hw hl).mono fun _ hr => List.mem_append_left _ hr
    | stop => exact quiet (supervised_stop h)
    | elapse d => exact quiet (supervised_elapse h hp)
    | _ => exact quiet (h.keep (keepsSweep_step ha hs (by simp) (by simp) (by simp)))

theorem supervised_run (env : Environment) (markets : List Market) (as : List Action)
    (ha : ∀ a ∈ as, a.leavesInterest) (ht : (initial env markets).Timely env as)
    (hw : 0 < env.settings.quotes.demandWindow)
    (hl : ((initial env markets).run env as).now + env.settings.quotes.demandWindow <
      Clock.limit) :
  Supervised env ((initial env markets).requests env as)
    ((initial env markets).starts env as).getLast? ((initial env markets).run env as)
  := by
  induction as using List.reverseRecOn with
  | nil =>
    constructor
    · intro m hm
      apply absurd hm (IdSet.not_mem_empty m)
    · intro hr
      contradiction
  | append_singleton as a ih =>
    rw [List.forall_mem_append, List.forall_mem_singleton] at ha
    rw [timely_concat] at ht
    rw [run_concat] at hl
    have hn := now_step env ((initial env markets).run env as) a
    have hl' : ((initial env markets).run env as).now + env.settings.quotes.demandWindow <
        Clock.limit := by omega
    rw [requests_concat, getLast?_starts_concat, run_concat]
    exact supervised_step (ih ha.1 ht.1 hl') (tracks_run env markets as) ha.2 ht.2 hw hl'

/-- On every run on time that leaves the subscriptions to the demand, and as long as the service
runs, every market that is subscribed was resolved by some query, at most two windows after which,
or two windows after the last start of the service, it is released. -/
theorem released_in_time (env : Environment) (markets : List Market) (as : List Action)
    (ha : ∀ a ∈ as, a.leavesInterest) (ht : (initial env markets).Timely env as)
    (hw : 0 < env.settings.quotes.demandWindow)
    (hl : ((initial env markets).run env as).now + env.settings.quotes.demandWindow <
      Clock.limit)
    (hr : ((initial env markets).run env as).running) :
  let s := (initial env markets).run env as
  ∃ started, ((initial env markets).starts env as).getLast? = some started ∧
    ∀ m ∈ s.subscribed, ∃ r ∈ (initial env markets).requests env as,
      r.market = m ∧ s.now ≤ max r.time started + 2 * env.settings.quotes.demandWindow
  := by
  intro s
  obtain ⟨t, due, e, hs⟩ := (supervised_run env markets as ha ht hw hl).sweeps hr
  use t, e
  intro m hm
  obtain ⟨r, hr, e, hd⟩ := hs.requested m hm
  use r, hr, e
  have hn : s.now ≤ due := hs.now_le
  omega

/-- A run in which a market is requested right after the release acted.  One window later the
request is still within the window, and so the market stays for another. -/
def lateRelease : List Action :=
  [.start, .refreshTimer, .elapse (Duration.seconds 300), .sweepTimer (Duration.seconds 300),
    .quotations "EUR" ["btc"], .elapse (Duration.seconds 300), .sweepTimer (Duration.seconds 600),
    .elapse (Duration.seconds 300)]

/-- A market can stay for two windows. -/
theorem released_after_two_windows :
  let s := standard.run .standard lateRelease
  (∀ a ∈ lateRelease, a.leavesInterest) ∧ standard.Timely .standard lateRelease ∧ s.running ∧
    ⟨"BTC-EUR"⟩ ∈ s.subscribed ∧
    standard.requests .standard lateRelease = [⟨⟨"BTC-EUR"⟩, Duration.seconds 300⟩] ∧
    s.now = Duration.seconds 300 + 2 * Environment.standard.settings.quotes.demandWindow ∧
    ∃ started, (standard.starts .standard lateRelease).getLast? = some started ∧
      ∀ m ∈ s.subscribed, ∃ r ∈ standard.requests .standard lateRelease,
        r.market = m ∧
          s.now ≤ max r.time started + 2 * Environment.standard.settings.quotes.demandWindow
  := by
  have ha : ∀ a ∈ lateRelease, a.leavesInterest := by decide +kernel
  have ht : standard.Timely .standard lateRelease := by decide +kernel
  have hr : (standard.run .standard lateRelease).running := by decide +kernel
  have hm : ⟨"BTC-EUR"⟩ ∈ (standard.run .standard lateRelease).subscribed := by decide +kernel
  have hq : standard.requests .standard lateRelease =
      [⟨⟨"BTC-EUR"⟩, Duration.seconds 300⟩] := by decide +kernel
  have hn : (standard.run .standard lateRelease).now =
      Duration.seconds 300 + 2 * Environment.standard.settings.quotes.demandWindow := by
    decide +kernel
  have hw : 0 < Environment.standard.settings.quotes.demandWindow := by decide +kernel
  have hl : (standard.run .standard lateRelease).now +
      Environment.standard.settings.quotes.demandWindow < Clock.limit := by decide +kernel
  refine ⟨ha, ht, hr, hm, hq, hn, ?_⟩
  unfold standard at ht hr hl ⊢
  exact released_in_time _ _ _ ha ht hw hl hr

end Service

end QuoteFeed
