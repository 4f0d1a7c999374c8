import QuoteFeed.Proofs.Service.Faults
import QuoteFeed.Proofs.Service.Quotes
import QuoteFeed.Proofs.Stream.Accounts

/-!
# The accounts of the service

The frames that are processed in a run are a list beside the state (`Service.frames`), and the
counters agree with it (`Service.Tallied`): every frame is counted under its type, and under a
reason if it is dropped, and pongs are counted by the keepalive too.  The counters of messages and
pings balance with the messages that the sessions took.  Every action keeps the accounts
(`tallied_step`), and so does every run (`accounts_after_run`).
-/

namespace QuoteFeed.Service

variable (env : Environment) (s : Service)

/-! ### The frames of a run -/

/-- The frame that is processed by an action. -/
def frame? (s : Service) : Action → Option Frame
  | .connection a => s.toStream.frame? a
  | _ => none

/-- The frames that are processed in a run. -/
def frames (as : List Action) : List Frame :=
  s.log env (fun s a => (s.frame? a).toList) as

variable {env s}

/-! ### Actions without a frame -/

theorem keepsAccounts_move {t t' : Stream} (h : Move env t t') :
  t.KeepsAccounts t'
  := by
  cases h with
  | start => apply Stream.keepsAccounts_start
  | stop => apply Stream.keepsAccounts_stop
  | ping generation due => apply Stream.keepsAccounts_pingTick
  | sync wanted => apply Stream.keepsAccounts_sync
  | beginRefresh => exact Stream.KeepsAccounts.of_eq (Desk.counts_beginRefresh _) rfl
  | endRefresh answer => exact Stream.KeepsAccounts.of_eq (Desk.counts_endRefresh env _ answer) rfl
  | releaseRefresh => exact Stream.KeepsAccounts.of_eq rfl rfl
  | note n => exact (Stream.KeepsAccounts.refl t).note n

theorem keepsAccounts_moves {t t' : Stream} (h : Moves env t t') :
  t.KeepsAccounts t'
  := by
  induction h with
  | refl => apply Stream.KeepsAccounts.refl
  | tail _ hm ih => exact ih.trans (keepsAccounts_move hm)

/-- An action by which no frame is processed keeps the accounts. -/
theorem keepsAccounts_step {a : Action} (h : s.frame? a = none) :
  s.toStream.KeepsAccounts (s.step env a).toStream
  := by
  cases a with
  | connection a => apply Stream.keepsAccounts_act h
  | purge => exact Stream.KeepsAccounts.of_eq rfl rfl
  | elapse d => exact Stream.KeepsAccounts.of_eq rfl rfl
  | _ => exact keepsAccounts_moves (moves_step env rfl)

/-! ### The accounts agree with the frames -/

/-- The counters agree with the frames that were processed, each of which was dropped for its
reason if it had one. -/
structure Tallied (env : Environment) (history : List Frame) (s : Service) : Prop where
  balanced : s.toStream.Balanced
  processed : ∀ f ∈ history, (f.outcome? env).map (·.reason?) = some f.reason?
  received_eq : ∀ k, s.counts.received.get k = history.countP fun f => f.kind = k
  dropped_eq : ∀ r, s.counts.dropped.get r = history.countP fun f => f.reason? = some r
  ackMetric_eq : s.counts.ackMetric = history.countP fun f => f.kind = .pong
  acks_eq : s.counts.acks = history.countP fun f => f.kind = .pong

variable {s' : Service} {history : List Frame}

theorem Tallied.keep (h : Tallied env history s) (hk : s.toStream.KeepsAccounts s'.toStream) :
  Tallied env history s'
  := by
  have hi : s'.counts.inbound = s.counts.inbound := hk.inbound_eq
  simp only [Counts.inbound, Prod.mk.injEq] at hi
  obtain ⟨hr, hd, hm, ha⟩ := hi
  constructor
  · apply hk.balanced h.balanced
  · apply h.processed
  · rw [hr]
    apply h.received_eq
  · rw [hd]
    apply h.dropped_eq
  · rw [hm]
    apply h.ackMetric_eq
  · rw [ha]
    apply h.acks_eq

/-- The accounts are kept when a frame is counted. -/
theorem Tallied.frame (h : Tallied env history s) {f : Frame}
    (hf : (f.outcome? env).map (·.reason?) = some f.reason?)
    (hc : s'.counts = s.counts.take f.kind f.reason?) (ht : s'.transport = s.transport) :
  Tallied env (history ++ [f]) s'
  := by
  have countP_concat (p : Frame → Prop) [DecidablePred p] :
      (history ++ [f]).countP (p ·) = history.countP (p ·) + if p f then 1 else 0 := by
    rw [List.countP_append, List.countP_singleton]
    simp only [decide_eq_true_eq]
  obtain ⟨hs, hm, hp⟩ := s.counts.outbound_take f.kind f.reason?
  constructor
  · apply h.balanced.of_eq
    · rw [hc, hs]
    · rw [hc, hm]
    · rw [hc, hp]
    · rw [ht]
  · rw [List.forall_mem_append, List.forall_mem_singleton]
    use h.processed
  · intro k
    rw [hc, Counts.received_take, EventCounts.get_bump, h.received_eq, countP_concat]
    simp only [eq_comm]
  · intro r
    rw [hc, Counts.dropped_take, countP_concat, ← h.dropped_eq]
    cases f.reason? with
    | none => rfl
    | some r' =>
      simp only [Option.map_some, Option.getD_some, DropCounts.get_bump, Option.some.injEq, eq_comm]
  · rw [hc, Counts.ackMetric_take, h.ackMetric_eq, countP_concat]
  · rw [hc, Counts.acks_take, h.acks_eq, countP_concat]

/-- Every action keeps the accounts, if the quote that arrives by it fits. -/
theorem tallied_step (h : Tallied env history s) {a : Action}
    (hf : ∀ r, s.receipt? env a = some r → r.Fits env) :
  Tallied env (history ++ (s.frame? a).toList) (s.step env a)
  := by
  cases hr : s.frame? a with
  | none =>
    rw [Option.toList_none, List.append_nil]
    apply h.keep (keepsAccounts_step hr)
  | some f =>
    cases a with
    | connection a =>
      -- only an act on the connection brings a frame
      obtain ⟨ho, hc, ht⟩ := Stream.counts_act hr hf
      apply h.frame ho hc ht
    | _ => contradiction

theorem tallied_run (env : Environment) (markets : List Market) (as : List Action)
    (hf : ∀ r ∈ (initial env markets).receipts env as, r.Fits env) :
  Tallied env ((initial env markets).frames env as) ((initial env markets).run env as)
  := by
  induction as using List.reverseRecOn with
  | nil =>
    constructor
    · constructor
      · intro k
        cases k <;> rfl
      · rfl
      · rfl
    · intro f hf
      contradiction
    · intro k
      cases k <;> rfl
    · intro r
      cases r <;> rfl
    · rfl
    · rfl
  | append_singleton as a ih =>
    rw [receipts_concat, List.forall_mem_append] at hf
    rw [frames, log_concat, run_concat]
    apply tallied_step (ih hf.1)
    intro r hr
    apply hf.2
    rw [hr]
    simp

/-! ### Quotes, drops and types -/

/-- A quote arrives if a frame is processed that gives it. -/
theorem receipt?_eq_bind (h : s.toLink.Attentive) (a : Action) :
  s.receipt? env a = (s.frame? a).bind fun f => (f.quote? env).map (⟨·, s.now⟩)
  := by
  cases a with
  | connection a => apply Stream.receipt?_eq_bind h
  | _ => rfl

/-- The quotes that arrive in a run are those that its frames give. -/
theorem quotes_of_frames (env : Environment) (markets : List Market) (as : List Action)
    (hf : ∀ r ∈ (initial env markets).receipts env as, r.Fits env) :
  ((initial env markets).receipts env as).map (·.quote) =
    ((initial env markets).frames env as).filterMap (·.quote? env)
  := by
  induction as using List.reverseRecOn with
  | nil => rfl
  | append_singleton as a ih =>
    rw [receipts_concat, List.forall_mem_append] at hf
    rw [frames] at ih ⊢
    -- the session that is held stays heard, so that the frames that arrive on it are processed
    rw [receipts_concat, log_concat, List.map_append, List.filterMap_append, ih hf.1,
      receipt?_eq_bind (shows_run env markets as hf.1).attentive]
    congr 1
    cases ((initial env markets).run env as).frame? a with
    | none => rfl
    | some f =>
      rw [Option.bind_some, Option.toList_some, List.filterMap_cons, List.filterMap_nil]
      cases f.quote? env with
      | none => rfl
      | some q => rfl

/-- After every run in which the lifetimes of quotes stay within the clock, each type of message is
counted as often as the sessions took one, and the pings by the keepalive too, which also agrees on
the pongs that were processed; each frame is counted under one type, and under the reason for which
it was dropped, if it was; the frames of markets gave quotes, each of which was stored
(`Stream.cache_act`), or were dropped for their market or their book, and those that are no events
were dropped as such. -/
theorem accounts_after_run (env : Environment) (markets : List Market) (as : List Action)
    (hf : ∀ r ∈ (initial env markets).receipts env as, r.Fits env) :
  let s := (initial env markets).run env as
  let m := s.report.metrics
  let frames := (initial env markets).frames env as
  (∀ k, m.sent.get k = s.transport.taken k) ∧
    (m.pings = s.transport.taken .ping ∧ s.keepalive.pings = s.transport.taken .ping) ∧
    (m.acks = frames.countP (·.kind = .pong) ∧ s.keepalive.acks = frames.countP (·.kind = .pong)) ∧
    (∀ k, m.received.get k = frames.countP (·.kind = k)) ∧
    m.received.ticker + m.received.orderBook + m.received.pong + m.received.other =
      frames.length ∧
    (∀ f ∈ frames, (f.outcome? env).map (·.reason?) = some f.reason?) ∧
    (∀ r, m.dropped.get r = frames.countP (·.reason? = some r)) ∧
    m.received.ticker + m.received.orderBook =
      ((initial env markets).receipts env as).length + m.dropped.unknownMarket +
        m.dropped.emptyBook ∧
    m.received.other = m.dropped.malformed + m.dropped.unsupportedType
  := by
  intro s m frames
  have h : Tallied env frames s := tallied_run env markets as hf
  obtain ⟨hl, hm, ho⟩ := Frame.countP_kind env frames
  have hq : ((initial env markets).receipts env as).length =
      (frames.filterMap (·.quote? env)).length := by
    rw [← quotes_of_frames env markets as hf, List.length_map]
  rw [← hq] at hm
  simp only [← h.received_eq, ← h.dropped_eq] at hl hm ho
  exact ⟨h.balanced.sent_eq, ⟨h.balanced.pingMetric_eq, h.balanced.pings_eq⟩,
    ⟨h.ackMetric_eq, h.acks_eq⟩, h.received_eq, hl, h.processed, h.dropped_eq, hm, ho⟩

/-- A run in which a ping is sent and answered, and two of the other three frames are dropped. -/
def busyRun : List Action :=
  let frame (text : String) : Action := .connection (.event 1 (.message text))
  [.refresh, .start, .connection (.event 1 .opened),
    frame "\x7b\"type\":\"ticker\",\"id\":\"BTC-EUR\",\"data\":\x7b\"buy\":2,\"sell\":1\x7d\x7d",
    frame "\x7b\"type\":\"ticker\",\"id\":\"ETH-EUR\",\"data\":\x7b\"buy\":2,\"sell\":1\x7d\x7d",
    .connection (.ping 1 0), frame "\x7b\"type\":\"pong\",\"ts\":0\x7d", frame "?"]

/-- Two tickers are counted after it, one of a market that is not known, and one malformed frame. -/
theorem accounts_after_busy_run :
  (∀ r ∈ standard.receipts .standard busyRun, r.Fits .standard) ∧
    let m := (standard.run .standard busyRun).report.metrics
    m.pings = 1 ∧ m.acks = 1 ∧ m.received.get .ticker = 2 ∧
      m.dropped.get .unknownMarket = 1 ∧ m.dropped.get .malformed = 1
  := by
  have hf : ∀ r ∈ standard.receipts .standard busyRun, r.Fits .standard := by
    have hr : standard.receipts .standard busyRun = [tickerReceipt] := by decide +kernel
    rw [hr, List.forall_mem_singleton]
    change 0 + Environment.standard.settings.quotes.ttl < Clock.limit
    decide +kernel
  have hp : (standard.run .standard busyRun).transport.taken .ping = 1 := by decide +kernel
  have hk : (standard.frames .standard busyRun).map (·.kind) =
      [.ticker, .ticker, .pong, .other] := by
    decide +kernel
  have hr : (standard.frames .standard busyRun).map (·.reason?) =
      [none, some .unknownMarket, none, some .malformed] := by
    decide +kernel
  have ofKind (k : EventType) : (standard.frames .standard busyRun).countP (·.kind = k) =
      [.ticker, .ticker, .pong, .other].countP (· = k) := by
    rw [← hk, List.countP_map]
    rfl
  have ofReason (r : DropReason) : (standard.frames .standard busyRun).countP (·.reason? = some r) =
      [none, some .unknownMarket, none, some .malformed].countP (· = some r) := by
    rw [← hr, List.countP_map]
    rfl
  use hf
  -- unless both sides read the same, unification evaluates the run
  unfold standard at hf hp ofKind ofReason ⊢
  obtain ⟨-, ⟨pings, -⟩, ⟨acks, -⟩, received, -, -, dropped, -⟩ := accounts_after_run _ _ _ hf
  exact ⟨pings.trans hp, acks.trans (ofKind .pong), (received .ticker).trans (ofKind .ticker),
    (dropped .unknownMarket).trans (ofReason .unknownMarket),
    (dropped .malformed).trans (ofReason .malformed)⟩

end QuoteFeed.Service
