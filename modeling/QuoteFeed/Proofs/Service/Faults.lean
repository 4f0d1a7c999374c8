import QuoteFeed.Proofs.Desk
import QuoteFeed.Proofs.Service.Quotes
import QuoteFeed.Proofs.Settings

/-!
# Faults

A part of the service dies when a time leads beyond the clock, when a periodic timer has no first
tick, or when a session finds no queue for its events (`Fault`).  Which faults a run can meet is a
matter of the settings alone: for each fault there is a bound, and beyond it a run of a few actions
meets the fault (`Service.meetsBy_snapshot_iff` and the like).  Without a queue no session opens,
and the faults of an open session are not met.  Settings that are accepted keep two of these bounds
in part, and the others not at all (`Service.faults_of_accepted`).
-/

namespace QuoteFeed

/-- What a part of the service dies of. -/
inductive Fault where
  /-- The lifetime of a snapshot leads beyond the clock, and the refresh dies. -/
  | snapshot
  /-- The lifetime of a quote leads beyond the clock, and the dispatch of its session dies. -/
  | quote
  /-- The release of idle markets has no first tick. -/
  | sweep
  /-- The ping of a session has no first tick. -/
  | ping
  /-- A session finds no queue for its events. -/
  | queue

theorem Clock.after?_eq_none_iff {now d : Nat} :
  after? now d = none ↔ limit ≤ now + d
  := by
  rw [after?]
  split
  · simp; omega
  · simp; omega

theorem Clock.firstTick?_eq_none_iff {now period : Nat} :
  firstTick? now period = none ↔ period = 0 ∨ limit ≤ now + period
  := by
  rw [firstTick?]
  split
  · simp [*]
  · rw [after?_eq_none_iff]
    simp [*]

/-! ### Settings -/

/-- Settings that are accepted ping at intervals, and have room for an event. -/
theorem Settings.pos_of_accepted {vars : Variables} {settings : Settings}
    (h : Settings.ofVariables vars = .ok settings) :
  0 < settings.stream.keepalive ∧ 0 < settings.stream.eventBuffer
  := by
  have ha := Settings.ofVariables_eq_ok_iff.1 h
  exact ⟨ha.keepalive, ha.one_le_eventBuffer⟩

/-! ### The expiry of the catalog -/

namespace Desk

variable {env : Environment} {d d' d'' : Desk}

/-- The snapshot stays, or it becomes one that is fetched now and lives for its lifetime. -/
def Dates (env : Environment) (d d' : Desk) : Prop :=
  d'.catalog.snapshot = d.catalog.snapshot ∨
    d.now + env.settings.catalog.lifetime < Clock.limit ∧
      ∃ ms, d'.catalog.snapshot = some ⟨ms, env.wall d.now, d.now + env.settings.catalog.lifetime⟩

theorem Dates.of_eq (h : d'.catalog = d.catalog) :
  d.Dates env d'
  := Or.inl (congrArg Catalog.snapshot h)

theorem Dates.trans (h : d.Dates env d') (hn : d'.now = d.now) (h' : d'.Dates env d'') :
  d.Dates env d''
  := by
  obtain h' | h' := h'
  · rw [Dates, h']
    apply h
  · rw [hn] at h'
    apply Or.inr h'

theorem dates_beginRefresh (env : Environment) (d : Desk) :
  d.Dates env d.beginRefresh.2
  := by
  rw [beginRefresh]
  split
  · exact Or.inl rfl
  · exact Or.inl rfl

theorem dates_endRefresh (env : Environment) (d : Desk)
    (answer : Except FetchError (List Market)) :
  d.Dates env (d.endRefresh env answer).2
  := by
  cases answer with
  | error e => exact Or.inl rfl
  | ok ms =>
    rw [endRefresh, Clock.after?]
    by_cases hl : d.now + env.settings.catalog.lifetime < Clock.limit
    · rw [if_pos hl]
      right
      use hl, ms
      rfl
    · rw [if_neg hl]
      exact Or.inl rfl

/-- A fetch that is answered leads beyond the clock only by the lifetime of its snapshot. -/
theorem limit_le_of_overflow {answer : Except FetchError (List Market)}
    (h : (d.endRefresh env answer).1 = .overflow) :
  Clock.limit ≤ d.now + env.settings.catalog.lifetime
  := by
  cases answer with
  | error e => cases h
  | ok ms =>
    apply Clock.after?_eq_none_iff.1
    rw [endRefresh] at h
    cases ha : Clock.after? d.now env.settings.catalog.lifetime with
    | none => rfl
    | some expiresAt => rw [ha] at h; cases h

/-- A fetch that is answered with markets leads beyond the clock if their lifetime does. -/
theorem overflow_of_limit_le (ms : List Market)
    (h : Clock.limit ≤ d.now + env.settings.catalog.lifetime) :
  (d.endRefresh env (.ok ms)).1 = .overflow
  := by
  rw [endRefresh, Clock.after?_eq_none_iff.2 h]

/-- A frame that gives a quote is of a market that is live. -/
theorem lists_of_quoteOf? {text : String} {q : Quote} (h : d.quoteOf? env text = some q) :
  ∃ id, d.Lists id
  := by
  have lists {id : MarketId} {ts : Option Int} {bid ask : Decimal}
      (h : d.quote? env id ts bid ask = some q) : ∃ id, d.Lists id := by
    rw [quote?] at h
    split at h
    · use id
    · cases h
  rw [quoteOf?] at h
  split at h
  · rename_i event _
    cases event with
    | ticker id ts buy sell => apply lists h
    | orderBook id ts asks bids =>
      rw [quoteIn?] at h
      split at h
      · apply lists h
      · cases h
    | pong ts => cases h
  · cases h

/-- A frame cannot be taken exactly if it gives a quote whose lifetime leads beyond the clock. -/
theorem process?_eq_none_iff {text : String} :
  d.process? env text = none ↔
    (d.quoteOf? env text).isSome ∧ Clock.limit ≤ d.now + env.settings.quotes.ttl
  := by
  rw [← Option.map_eq_none_iff (f := fun r => r.2.cache), cache_process?]
  cases d.quoteOf? env text with
  | none => simp [cacheWith?]
  | some q => simp [cacheWith?, Clock.after?_eq_none_iff]

end Desk

namespace Service

variable {env : Environment} {s : Service}

/-- A move keeps the time, and it keeps the snapshot or takes one that lives from now on for its
lifetime. -/
theorem dates_move {t t' : Stream} (h : Move env t t') :
  t'.now = t.now ∧ t.toDesk.Dates env t'.toDesk
  := by
  have same {t' : Stream} (h : t'.toDesk.books = t.toDesk.books) :
      t'.now = t.now ∧ t.toDesk.Dates env t'.toDesk := by
    have hs : t'.toDesk.setting = t.toDesk.setting := by
      apply congrArg Desk.setting h
    exact ⟨congrArg Prod.fst hs, .of_eq (congrArg Prod.snd hs)⟩
  cases h with
  | start => exact same (Stream.books_start env t)
  | stop => exact same (Stream.books_stop env t)
  | ping generation due =>
    have h := Stream.setting_pingTick env t generation due
    exact ⟨congrArg Prod.fst h, .of_eq (congrArg Prod.snd h)⟩
  | sync wanted => exact same (Stream.books_sync env t wanted)
  | beginRefresh =>
    exact ⟨(Desk.sameQuotes_beginRefresh t.toDesk).1, Desk.dates_beginRefresh env t.toDesk⟩
  | endRefresh answer =>
    exact ⟨(Desk.sameQuotes_endRefresh env t.toDesk answer).1,
      Desk.dates_endRefresh env t.toDesk answer⟩
  | releaseRefresh => exact ⟨rfl, Or.inl rfl⟩
  | note n => exact ⟨rfl, Or.inl rfl⟩

theorem dates_moves {t t' : Stream} (h : Moves env t t') :
  t'.now = t.now ∧ t.toDesk.Dates env t'.toDesk
  := by
  induction h with
  | refl => exact ⟨rfl, Or.inl rfl⟩
  | tail _ hm ih =>
    obtain ⟨hn, hd⟩ := dates_move hm
    exact ⟨hn.trans ih.1, ih.2.trans ih.1 hd⟩

/-- Every action keeps the snapshot, or takes one that lives from now on for its lifetime. -/
theorem dates_step (env : Environment) (s : Service) (a : Action) :
  s.toDesk.Dates env (s.step env a).toDesk
  := by
  cases a with
  | connection c =>
    apply Desk.Dates.of_eq
    apply congrArg Prod.snd (Stream.setting_act env s.toStream c)
  | purge => exact Or.inl rfl
  | elapse d => exact Or.inl rfl
  | _ => exact (dates_moves (moves_step env rfl)).2

/-- The snapshot was fetched at a time in the past, and lives from then on for its lifetime. -/
def Dated (env : Environment) (s : Service) : Prop :=
  ∀ snapshot, s.catalog.snapshot = some snapshot → ∃ t ≤ s.now,
    t + env.settings.catalog.lifetime < Clock.limit ∧
      snapshot.expiresAt = t + env.settings.catalog.lifetime

theorem dated_step (h : s.Dated env) (a : Action) :
  (s.step env a).Dated env
  := by
  intro snapshot hs
  obtain e | ⟨hl, ms, e⟩ := dates_step env s a
  · obtain ⟨t, ht, hl, hx⟩ := h snapshot (e.symm.trans hs)
    use t, Nat.le_trans ht (now_step env s a)
  · obtain rfl := Option.some.inj (e.symm.trans hs)
    use s.now, now_step env s a

theorem dated_run (env : Environment) (markets : List Market) (as : List Action) :
  ((initial env markets).run env as).Dated env
  := by
  induction as using List.reverseRecOn with
  | nil => exact fun _ hs => nomatch hs
  | append_singleton as a ih =>
    rw [run_concat]
    apply dated_step ih

/-- While a market is live, the lifetime of snapshots is positive and within the clock. -/
theorem Dated.lifetime (h : s.Dated env) {id : MarketId} (hl : s.Lists id) :
  0 < env.settings.catalog.lifetime ∧ env.settings.catalog.lifetime < Clock.limit
  := by
  obtain ⟨m, hm, -⟩ := hl
  rw [Catalog.current, Catalog.live?] at hm
  cases hs : s.catalog.snapshot with
  | none => rw [hs] at hm; cases hm
  | some snapshot =>
    obtain ⟨t, ht, hl, hx⟩ := h snapshot hs
    rw [hs, Option.filter_some] at hm
    split at hm
    · rename_i hn
      have hn : s.now < snapshot.expiresAt := by simpa [Snapshot.isLive] using hn
      omega
    · cases hm

/-! ### Faults in a run -/

/-- A refresh of the catalog by an action is answered, and leads beyond the clock. -/
def Overflows (env : Environment) (s : Service) : Action → Prop
  | .refresh => (s.refresh env).1 = .overflow
  | .refreshTimer => (s.refreshCycle env).1 = none
  | .finishRefresh =>
    ∃ answer, .waiting answer ∈ s.calls ∧ (s.toDesk.endRefresh env answer).1 = .overflow
  | _ => False

/-- An action meets a fault. -/
def Meets (env : Environment) (s : Service) (a : Action) : Fault → Prop
  | .snapshot => s.Overflows env a
  | .quote => ∃ n text, a = .connection (.event n (.message text)) ∧ s.transport.hears n ∧
      s.isCurrent n ∧ s.toDesk.process? env text = none
  | .sweep => a = .start ∧ ¬ s.running ∧ (s.start env).sweepDue = none
  | .ping => ∃ n, a = .connection (.event n .opened) ∧ s.awaits n ∧
      (s.deliver env n .opened).pingDue = none
  | .queue => s.step? env a = none

/-- A run that has not failed meets a fault not later than `last`. -/
def MeetsBy (env : Environment) (last : Nat) (fault : Fault) : Prop :=
  ∃ markets as s a, (initial env markets).run? env as = some s ∧ s.now ≤ last ∧
    s.Meets env a fault

/-- A session that is current and heard was asked for. -/
theorem generation_pos {n : Nat} (hh : s.transport.hears n) (hg : s.generation = n) :
  0 < s.generation
  := by
  apply Nat.pos_of_ne_zero
  intro h
  obtain rfl := hg.symm.trans h
  cases hh

/-- A run in which time passes and nothing else happens does not fail. -/
theorem run?_elapse (markets : List Market) {d : Nat} :
  (initial env markets).run? env [.elapse d] = some ((initial env markets).run env [.elapse d])
  := by
  rw [run?, List.foldlM_cons, step?, if_neg fun h => Nat.lt_irrefl 0 h.1]
  rfl

/-- A refresh leads beyond the clock only by the lifetime of its snapshot. -/
theorem limit_le_of_overflows {a : Action} (h : s.Overflows env a) :
  Clock.limit ≤ s.now + env.settings.catalog.lifetime
  := by
  have refresh (h : (s.refresh env).1 = .overflow) :
      Clock.limit ≤ s.now + env.settings.catalog.lifetime := by
    rw [Service.refresh] at h
    dsimp only at h
    split at h
    · rw [← (Desk.sameQuotes_beginRefresh s.toDesk).1]
      apply Desk.limit_le_of_overflow h
    · cases h
  cases a with
  | refresh => apply refresh h
  | refreshTimer =>
    apply refresh
    change (s.refreshCycle env).1 = none at h
    rw [refreshCycle] at h
    split at h
    · cases h
    · cases h
    · rename_i e; rw [e]
  | finishRefresh =>
    obtain ⟨answer, -, h⟩ := h
    apply Desk.limit_le_of_overflow h
  | _ => exact h.elim

/-- The refresh dies exactly if the lifetime of snapshots leads beyond the clock. -/
theorem meetsBy_snapshot_iff {last : Nat} :
  MeetsBy env last .snapshot ↔ Clock.limit ≤ last + env.settings.catalog.lifetime
  := by
  constructor
  · rintro ⟨markets, as, s, a, -, hn, h⟩
    have hl := limit_le_of_overflows h
    omega
  · intro h
    use [], [.elapse last], (initial env []).run env [.elapse last], .refresh, run?_elapse []
    constructor
    · apply Nat.le_of_eq (Nat.zero_add last)
    · apply Desk.overflow_of_limit_le
      change Clock.limit ≤ 0 + last + env.settings.catalog.lifetime
      omega

/-- The release of idle markets dies exactly if its period is zero or leads beyond the clock. -/
theorem meetsBy_sweep_iff {last : Nat} :
  MeetsBy env last .sweep ↔
    env.settings.quotes.demandWindow = 0 ∨ Clock.limit ≤ last + env.settings.quotes.demandWindow
  := by
  have due (s : Service) (h : ¬ s.running) :
      (s.start env).sweepDue = Clock.firstTick? s.now env.settings.quotes.demandWindow := by
    rw [start, if_neg h]
    rfl
  constructor
  · rintro ⟨markets, as, s, a, -, hn, -, hr, h⟩
    rw [due _ hr, Clock.firstTick?_eq_none_iff] at h
    omega
  · intro h
    use [], [.elapse last], (initial env []).run env [.elapse last], .start, run?_elapse []
    have hr : ¬ ((initial env []).run env [.elapse last]).running := Bool.false_ne_true
    refine ⟨?_, rfl, hr, ?_⟩
    · apply Nat.le_of_eq (Nat.zero_add last)
    · rw [due _ hr, Clock.firstTick?_eq_none_iff]
      change _ ∨ Clock.limit ≤ 0 + last + _
      omega

/-- The ping dies exactly if a session can open, and the interval of the ping is zero or leads
beyond the clock. -/
theorem meetsBy_ping_iff {last : Nat} :
  MeetsBy env last .ping ↔
    IsQueue env.settings.stream.eventBuffer ∧
      (env.settings.stream.keepalive = 0 ∨ Clock.limit ≤ last + env.settings.stream.keepalive)
  := by
  have due (s : Service) (n : Nat) (h : s.awaits n) :
      (s.deliver env n .opened).pingDue =
        Clock.firstTick? s.now env.settings.stream.keepalive := by
    apply congrArg (fun l : Link => l.pinger.bind (·.due)) (Stream.deliver_opened env s.toStream n h)
  constructor
  · rintro ⟨markets, as, s, a, hr, hn, n, -, hw, h⟩
    rw [due _ n hw, Clock.firstTick?_eq_none_iff] at h
    refine ⟨isQueue_of_run? hr (generation_pos hw.1 hw.2.1), ?_⟩
    omega
  · rintro ⟨hq, h⟩
    use [], [.elapse last, .start], (initial env []).run env [.elapse last, .start],
      .connection (.event 1 .opened), run?_eq_some hq _
    have hw : ((initial env []).run env [.elapse last, .start]).awaits 1 := ⟨rfl, rfl, rfl⟩
    refine ⟨?_, 1, rfl, hw, ?_⟩
    · apply Nat.le_of_eq (Nat.zero_add last)
    · rw [due _ 1 hw, Clock.firstTick?_eq_none_iff]
      change _ ∨ Clock.limit ≤ 0 + last + _
      omega

/-- The first session finds no queue exactly if there is none of its size. -/
theorem meetsBy_queue_iff {last : Nat} :
  MeetsBy env last .queue ↔ ¬ IsQueue env.settings.stream.eventBuffer
  := by
  constructor
  · rintro ⟨markets, as, s, a, -, -, h⟩ hq
    exact nomatch (step?_eq_some hq a).symm.trans h
  · intro h
    use [], [], initial env [], .start, rfl
    exact ⟨Nat.zero_le last, if_pos ⟨Nat.zero_lt_one, h⟩⟩

/-- The list of one market. -/
def listed : List Market := [⟨⟨"BTC-EUR"⟩, "BTC", "EUR", 100, .zero, true⟩]

/-- A ticker of the market. -/
def tickerText : String :=
  "\x7b\"type\":\"ticker\",\"id\":\"BTC-EUR\",\"data\":\x7b\"buy\":2,\"sell\":1\x7d\x7d"

theorem decode_tickerText :
  Inbound.decode tickerText = .ok (.ticker ⟨"BTC-EUR"⟩ none
    ⟨false, 2, 0, Nat.le_of_ble_eq_true rfl, Nat.zero_le _⟩
    ⟨false, 1, 0, Nat.le_of_ble_eq_true rfl, Nat.zero_le _⟩)
  := by
  decide +kernel

/-- A catalog that is fetched is the list of markets for its lifetime. -/
theorem exists_refresh_eq (markets : List Market) {t : Nat}
    (h : t + env.settings.catalog.lifetime < Clock.limit) :
  ∃ desk : Desk, (initial env markets).run env [.elapse t, .refresh] =
      (initial env markets).countFetch.withDesk desk ∧ desk.now = t ∧
    desk.catalog = ⟨some ⟨markets, env.wall t, t + env.settings.catalog.lifetime⟩, false⟩
  := by
  let desk : Desk := { Desk.initial with now := t, catalog := ⟨none, true⟩ }
  use (desk.endRefresh env (.ok markets)).2
  constructor
  · change (((initial env markets).atTime (0 + t)).refresh env).2 = _
    rw [Nat.zero_add]
    rfl
  · rw [Desk.endRefresh, Clock.after?, if_pos (show desk.now + _ < Clock.limit from h)]
    exact ⟨rfl, rfl⟩

/-- While the list is live, its market is. -/
theorem lists_listed {d : Desk} {wall : Time.Timestamp} {expiresAt : Nat}
    (hc : d.catalog = ⟨some ⟨listed, wall, expiresAt⟩, false⟩) (hn : d.now < expiresAt) :
  d.Lists ⟨"BTC-EUR"⟩
  := by
  use ⟨⟨"BTC-EUR"⟩, "BTC", "EUR", 100, .zero, true⟩
  rw [hc, Catalog.current, Catalog.live?, Option.filter_some,
    if_pos (by simpa [Snapshot.isLive] using hn)]
  exact ⟨List.mem_of_mem_head? rfl, rfl⟩

theorem isSome_quoteOf?_tickerText {d : Desk} (h : d.Lists ⟨"BTC-EUR"⟩) :
  (d.quoteOf? env tickerText).isSome
  := by
  rw [Desk.quoteOf?, decode_tickerText]
  dsimp only
  rw [Desk.quoteIn?, Desk.quote?, if_pos h]
  rfl

/-- The dispatch of a session dies exactly if a session can open, the lifetime of quotes leads
beyond the clock, and a market can be live at all. -/
theorem meetsBy_quote_iff {last : Nat} (hl : last + 1 < Clock.limit) :
  MeetsBy env last .quote ↔
    IsQueue env.settings.stream.eventBuffer ∧ 0 < env.settings.catalog.lifetime ∧
      env.settings.catalog.lifetime < Clock.limit ∧ Clock.limit ≤ last + env.settings.quotes.ttl
  := by
  constructor
  · rintro ⟨markets, as, s, a, hr, hn, n, text, -, hh, hc, h⟩
    have hg : s.generation = n := by
      simp only [Stream.isCurrent, Bool.and_eq_true, decide_eq_true_eq] at hc
      apply hc.1
    have hqueue := isQueue_of_run? hr (generation_pos hh hg)
    obtain rfl := eq_run_of_run? hr
    obtain ⟨hq, ht⟩ := Desk.process?_eq_none_iff.1 h
    obtain ⟨q, hq⟩ := Option.isSome_iff_exists.1 hq
    obtain ⟨id, hid⟩ := Desk.lists_of_quoteOf? hq
    obtain ⟨h₀, h₁⟩ := (dated_run env markets as).lifetime hid
    refine ⟨hqueue, h₀, h₁, ?_⟩
    omega
  · rintro ⟨hqueue, h₀, h₁, ht⟩
    -- the catalog is fetched as late as its lifetime allows
    obtain ⟨t, htl, hlim, hlive⟩ : ∃ t ≤ last, t + env.settings.catalog.lifetime < Clock.limit ∧
        last < t + env.settings.catalog.lifetime := by
      use min last (Clock.limit - 1 - env.settings.catalog.lifetime)
      omega
    obtain ⟨desk, hr, hn, hc⟩ := exists_refresh_eq listed hlim
    let s := (((initial env listed).countFetch.withDesk desk).start env).atTime
      (desk.now + (last - t))
    have hs : (initial env listed).run env
        ([.elapse t, .refresh] ++ [.start, .elapse (last - t)]) = s := by
      rw [run_append, hr]
      rfl
    have hd : s.now = last := by
      change desk.now + (last - t) = last
      omega
    have hid : s.Lists ⟨"BTC-EUR"⟩ := lists_listed hc (by rw [hd]; apply hlive)
    use listed, [.elapse t, .refresh] ++ [.start, .elapse (last - t)], s,
      .connection (.event 1 (.message tickerText)), (run?_eq_some hqueue _).trans (congrArg some hs)
    use Nat.le_of_eq hd, 1, tickerText
    refine ⟨rfl, rfl, rfl, ?_⟩
    apply Desk.process?_eq_none_iff.2
    use isSome_quoteOf?_tickerText hid
    rw [hd]
    apply ht

/-! ### Accepted settings -/

/-- Settings that are accepted do not spare the service any fault for good.  Up to an instant within
the clock, a run meets a fault exactly if the lifetime or the period that belongs to it leads from
that instant beyond the clock, the demand window is zero, or the queue for the events of a session
is beyond all bounds; all the same, intervals of the ping and queues are never zero.  The faults of
an open session are met only if the queue is within its bounds, since no session opens otherwise. -/
theorem faults_of_accepted {vars : Variables} {env : Environment} {last : Nat}
    (ha : Settings.ofVariables vars = .ok env.settings) (hl : last + 1 < Clock.limit) :
  (MeetsBy env last .snapshot ↔ Clock.limit ≤ last + env.settings.catalog.lifetime) ∧
    (MeetsBy env last .quote ↔
      env.settings.stream.eventBuffer ≤ queueLimit ∧ 0 < env.settings.catalog.lifetime ∧
        env.settings.catalog.lifetime < Clock.limit ∧
        Clock.limit ≤ last + env.settings.quotes.ttl) ∧
    (MeetsBy env last .sweep ↔
      env.settings.quotes.demandWindow = 0 ∨
        Clock.limit ≤ last + env.settings.quotes.demandWindow) ∧
    (MeetsBy env last .ping ↔
      env.settings.stream.eventBuffer ≤ queueLimit ∧
        Clock.limit ≤ last + env.settings.stream.keepalive) ∧
    (MeetsBy env last .queue ↔ queueLimit < env.settings.stream.eventBuffer)
  := by
  obtain ⟨hk, hb⟩ := Settings.pos_of_accepted ha
  refine ⟨meetsBy_snapshot_iff, ?_, meetsBy_sweep_iff, ?_, ?_⟩
  · rw [meetsBy_quote_iff hl, IsQueue, and_iff_right hb]
  · rw [meetsBy_ping_iff, IsQueue]
    omega
  · rw [meetsBy_queue_iff, IsQueue]
    omega

/-- Variables that give the two addresses and nothing else. -/
def addresses : Variables := fun key =>
  if key = Settings.streamUrlKey then some "wss://stream.exchange.test"
  else if key = Settings.catalogUrlKey then some "https://exchange.test/markets"
  else none

/-- The default settings spare the service all faults for a century. -/
theorem faults_of_defaults :
  Settings.ofVariables addresses = .ok Environment.standard.settings ∧
    Duration.seconds (100 * 365 * 86400) + 1 < Clock.limit ∧
    ∀ fault, ¬ MeetsBy .standard (Duration.seconds (100 * 365 * 86400)) fault
  := by
  have ha : Settings.ofVariables addresses = .ok Environment.standard.settings := by
    have hs : Settings.address addresses Settings.streamUrlKey Settings.streamSchemes =
        .ok "wss://stream.exchange.test" := by decide +kernel
    have hc : Settings.address addresses Settings.catalogUrlKey Settings.catalogSchemes =
        .ok "https://exchange.test/markets" := by decide +kernel
    rw [Settings.ofVariables, hs, hc]
    rfl
  have hl : Duration.seconds (100 * 365 * 86400) + 1 < Clock.limit := by decide +kernel
  obtain ⟨hs, hq, hw, hp, hb⟩ := faults_of_accepted ha hl
  use ha, hl
  intro fault
  cases fault with
  | snapshot => rw [hs]; decide +kernel
  | quote => rw [hq]; decide +kernel
  | sweep => rw [hw]; decide +kernel
  | ping => rw [hp]; decide +kernel
  | queue => rw [hb]; decide +kernel

/-- Variables that ask for the longest time between refreshes and for a demand window of zero. -/
def extremes : Variables := fun key =>
  if key = "QUOTATION_CATALOG_REFRESH_SECS" then some "18446744073709551615"
  else if key = "QUOTATION_DEMAND_WINDOW_SECS" then some "0"
  else addresses key

/-- These variables are accepted, and the service meets two faults at the start: the catalog cannot
be refreshed, and no idle market is released. -/
theorem faults_of_extremes :
  ∃ settings, Settings.ofVariables extremes = .ok settings ∧
    MeetsBy { Environment.standard with settings } 0 .snapshot ∧
    MeetsBy { Environment.standard with settings } 0 .sweep
  := by
  have hs : Settings.address extremes Settings.streamUrlKey Settings.streamSchemes =
      .ok "wss://stream.exchange.test" := by decide +kernel
  have hc : Settings.address extremes Settings.catalogUrlKey Settings.catalogSchemes =
      .ok "https://exchange.test/markets" := by decide +kernel
  let base := Environment.standard.settings
  use { base with
    catalog := { base.catalog with refresh := Duration.seconds 18446744073709551615 }
    quotes := { base.quotes with demandWindow := 0 } }
  refine ⟨?_, ?_, ?_⟩
  · rw [Settings.ofVariables, hs, hc]
    rfl
  · rw [meetsBy_snapshot_iff]
    decide +kernel
  · rw [meetsBy_sweep_iff]
    left
    rfl

end Service

end QuoteFeed
