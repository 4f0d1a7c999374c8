import QuoteFeed.Proofs.Stream.Ledger

/-!
# The messages of a run

`Stream.offers` lists the messages that an act costs, and `sent_act` says that the session that is
held takes exactly these, as long as it takes any.  Together with the ledger this describes all
that the sessions of a run are told (`sessions_told_after_run`).
-/

namespace QuoteFeed.Stream

variable {env : Environment} {s : Stream} {n : Nat} {id : MarketId}

/-! ### What an act costs -/

/-- The messages that an act offers to the session that is held. -/
def offers (env : Environment) (s : Stream) : Act → List Outbound
  | .stop => s.withdrawals env
  | .subscribe id =>
    if s.state = .connected ∧ id ∉ s.subscribed then [subscribeMessage env id] else []
  | .unsubscribe id =>
    if s.state = .connected ∧ id ∈ s.subscribed then [unsubscribeMessage env id] else []
  | .event n e =>
    if e = .opened ∧ s.awaits n then s.pending.ids.map (subscribeMessage env) else []
  | .ping generation _ => s.pings generation
  | .start | .lose _ | .outage _ => []

/-- The messages that the latest session takes when it is offered some. -/
def taken (s : Stream) (ms : List Outbound) : List Sent :=
  if s.transport.accepts s.generation then ms.map (⟨s.generation, ·⟩) else []

@[simp]
theorem taken_nil :
  s.taken [] = []
  := by
  rw [taken]
  split
  · rfl
  · rfl

/-- While a session is held, it is the latest session that takes what is offered. -/
theorem sent_post (hc : s.toLink.Coherent) (hs : s.state ≠ .disconnected) (ms : List Outbound) :
  (s.transport.post s.handle ms).sent = s.transport.sent ++ s.taken ms
  := by
  rw [show s.handle = some s.generation from hc.handle_some hs]
  apply Transport.sent_post

theorem sent_stop (hc : s.toLink.Coherent) :
  (s.stop env).transport.sent = s.transport.sent ++ s.taken (s.withdrawals env)
  := by
  obtain ⟨hs, -, e⟩ | ⟨-, e⟩ := stop_cases env s
  · rw [e]
    simp [withdrawals, hs, Link.setStopped]
  · have h : (s.stop env).transport.sent =
        (s.transport.post s.handle (s.withdrawals env)).sent := by
      rw [e]
      apply Transport.sent_hangUp
    by_cases hs : s.state = .connected
    · rw [h]
      apply sent_post hc (by simp [hs])
    · simp [h, withdrawals, hs]

theorem sent_subscribe (hc : s.toLink.Coherent) (id : MarketId) :
  (s.subscribe env id).transport.sent =
    s.transport.sent ++ s.taken (s.offers env (.subscribe id))
  := by
  obtain ⟨hm, e⟩ | ⟨hm, hs, e⟩ | ⟨hm, hs, -, e⟩ | ⟨hm, hs, -, e⟩ := subscribe_cases env s id
  · rw [e]
    simp [offers, hm]
  · rw [e]
    simp only [offers, hs, hm, not_false_eq_true, and_self, if_true]
    apply sent_post hc (by simp [hs])
  · rw [e]
    simp [offers, hs, Link.defer]
  · rw [e]
    simp [offers, hs, Link.defer, Link.ask, Transport.connect]

theorem sent_unsubscribe (hc : s.toLink.Coherent) (id : MarketId) :
  (s.unsubscribe env id).transport.sent =
    s.transport.sent ++ s.taken (s.offers env (.unsubscribe id))
  := by
  obtain ⟨hm, e⟩ | ⟨-, hp, e⟩ | ⟨hm, -, hs, e⟩ | ⟨-, -, hs, e⟩ := unsubscribe_cases env s id
  · rw [e]
    simp [offers, hm]
  · have hs : s.state ≠ .connected := hc.not_connected hp
    rw [e]
    simp [offers, hs, Link.undefer]
  · rw [e]
    simp only [offers, hs, hm, and_self, if_true]
    apply sent_post hc (by simp [hs])
  · rw [e]
    simp [offers, hs, Link.drop]

theorem sent_deliver (hc : s.toLink.Coherent) (n : Nat) (e : SessionEvent) :
  (s.deliver env n e).transport.sent = s.transport.sent ++ s.taken (s.offers env (.event n e))
  := by
  obtain ⟨he, ha, e⟩ | ⟨ha, e | e | ⟨-, e⟩⟩ := deliver_cases env s n e
  · rw [e]
    simp only [offers, he, ha, and_self, if_true]
    apply sent_post hc (by simp [ha.2.2])
  · rw [e]
    simp [offers, ha]
  · rw [e]
    simp [offers, ha, Link.silence, Transport.ignore]
  · rw [e]
    simp [offers, ha, Link.silence, Link.reset, Transport.ignore]

theorem sent_pingTick (hc : s.toLink.Coherent) (generation due : Nat) :
  (s.pingTick env generation due).transport.sent =
    s.transport.sent ++ s.taken (s.pings generation)
  := by
  rw [toLink_pingTick]
  by_cases h : s.generation = generation ∧ s.state = .connected
  · apply sent_post hc (by simp [h.2])
  · simp [pings, if_neg h, Link.post, Link.rewind]

/-- The session that is held takes exactly the messages that an act costs. -/
theorem sent_act (hc : s.toLink.Coherent) (a : Act) :
  (s.act env a).transport.sent = s.transport.sent ++ s.taken (s.offers env a)
  := by
  cases a with
  | start =>
    obtain ⟨-, e⟩ | ⟨-, e⟩ := start_cases env s
    · rw [act, e]
      simp [offers, Link.ask, Link.setStopped, Transport.connect]
    · rw [act, e]
      simp [offers, Link.setStopped]
  | stop => apply sent_stop hc
  | subscribe id => apply sent_subscribe hc
  | unsubscribe id => apply sent_unsubscribe hc
  | event n e => apply sent_deliver hc
  | ping generation due => apply sent_pingTick hc
  | lose n => simp [act, offers, Transport.lose]
  | outage broken => simp [act, offers]

/-- What a session took so far, after an act. -/
theorem sentOn_act (hc : s.toLink.Coherent) (a : Act) (n : Nat) :
  (s.act env a).transport.sentOn n = s.transport.sentOn n ++
    if s.transport.accepts n ∧ s.generation = n then s.offers env a else []
  := by
  rw [Transport.sentOn, sent_act hc, List.filter_append, List.map_append, taken]
  by_cases hn : s.generation = n
  · subst hn
    by_cases h : s.transport.accepts s.generation
    · simp [Transport.sentOn, h, List.filter_map, Function.comp_def]
    · simp [Transport.sentOn, h]
  · by_cases h : s.transport.accepts s.generation
    · simp [Transport.sentOn, h, hn, List.filter_map, Function.comp_def]
    · simp [Transport.sentOn, h, hn]

/-! ### Before a session opens -/

/-- Messages are offered to an open session, or to one that opens. -/
theorem offers_eq_nil (a : Act) (hs : s.state ≠ .connected)
    (ha : a = .event s.generation .opened → ¬ s.awaits s.generation) :
  s.offers env a = []
  := by
  cases a with
  | stop => simp [offers, withdrawals, hs]
  | subscribe id => simp [offers, hs]
  | unsubscribe id => simp [offers, hs]
  | ping generation due => simp [offers, pings, hs]
  | event n e =>
    rw [offers, if_neg]
    rintro ⟨rfl, h⟩
    obtain rfl := h.2.1
    apply ha rfl h
  | start => rfl
  | lose n => rfl
  | outage broken => rfl

/-- A link becomes connected only when the session that it waits for opens. -/
theorem connected_act {a : Act} (h : (s.act env a).state = .connected) :
  (s.state = .connected ∧ (s.act env a).generation = s.generation)
    ∨ (a = .event s.generation .opened ∧ s.awaits s.generation ∧
      (s.act env a).generation = s.generation)
  := by
  cases a with
  | start =>
    obtain ⟨-, e⟩ | ⟨-, e⟩ := start_cases env s
    · rw [act, e] at h
      exact nomatch h
    · rw [act, e] at h ⊢
      exact Or.inl ⟨h, rfl⟩
  | stop =>
    obtain ⟨-, -, e⟩ | ⟨-, e⟩ := stop_cases env s
    · rw [act, e] at h ⊢
      exact Or.inl ⟨h, rfl⟩
    · rw [act, e] at h
      exact nomatch h
  | subscribe id =>
    obtain ⟨-, e⟩ | ⟨-, -, e⟩ | ⟨-, -, -, e⟩ | ⟨-, -, -, e⟩ := subscribe_cases env s id
    · rw [act, e] at h ⊢
      exact Or.inl ⟨h, rfl⟩
    · rw [act, e] at h ⊢
      exact Or.inl ⟨h, rfl⟩
    · rw [act, e] at h ⊢
      exact Or.inl ⟨h, rfl⟩
    · rw [act, e] at h
      exact nomatch h
  | unsubscribe id =>
    obtain ⟨-, e⟩ | ⟨-, -, e⟩ | ⟨-, -, -, e⟩ | ⟨-, -, -, e⟩ := unsubscribe_cases env s id
    · rw [act, e] at h ⊢
      exact Or.inl ⟨h, rfl⟩
    · rw [act, e] at h ⊢
      exact Or.inl ⟨h, rfl⟩
    · rw [act, e] at h ⊢
      exact Or.inl ⟨h, rfl⟩
    · rw [act, e] at h ⊢
      exact Or.inl ⟨h, rfl⟩
  | event n e =>
    obtain ⟨rfl, ha, e⟩ | ⟨-, e | e | ⟨-, e⟩⟩ := deliver_cases env s n e
    · obtain rfl := ha.2.1
      rw [act, e]
      exact Or.inr ⟨rfl, ha, rfl⟩
    · rw [act, e] at h ⊢
      exact Or.inl ⟨h, rfl⟩
    · rw [act, e] at h ⊢
      exact Or.inl ⟨h, rfl⟩
    · rw [act, e] at h
      exact nomatch h
  | ping generation due =>
    rw [act, toLink_pingTick] at h ⊢
    exact Or.inl ⟨h, rfl⟩
  | lose n => exact Or.inl ⟨h, rfl⟩
  | outage broken => exact Or.inl ⟨h, rfl⟩

/-- In a run the session of a number opened: its opening was handled while it was awaited. -/
def OpenedIn (env : Environment) (as : List Action) (n : Nat) : Prop :=
  ∃ before after, as = before ++ .act (.event n .opened) :: after ∧
    (initial.run env before).awaits n

/-- A session that opened in a part of a run opened in the run. -/
theorem OpenedIn.append {as : List Action} (h : OpenedIn env as n) (bs : List Action) :
  OpenedIn env (as ++ bs) n
  := by
  obtain ⟨before, after, rfl, ha⟩ := h
  use before, after ++ bs
  constructor
  · simp
  · apply ha

/-- The session of a number is neither open nor was it told anything. -/
structure Unopened (n : Nat) (l : Link) : Prop where
  silent : l.transport.sentOn n = []
  waiting : l.state = .connected → l.generation ≠ n

/-- A session stays unopened until its opening is handled. -/
theorem unopened_act (hc : s.toLink.Coherent) (h : Unopened n s.toLink) {a : Act}
    (ha : a = .event n .opened → ¬ s.awaits n) :
  Unopened n (s.act env a).toLink
  where
  silent := by
    rw [sentOn_act hc, h.silent, List.nil_append]
    split
    · rename_i hn
      obtain ⟨-, rfl⟩ := hn
      apply offers_eq_nil a _ ha
      intro hs
      apply h.waiting hs rfl
    · rfl
  waiting hs := by
    rintro rfl
    obtain ⟨hs, e⟩ | ⟨rfl, hw, e⟩ := connected_act hs
    · apply h.waiting hs e.symm
    · rw [e] at ha
      apply ha rfl hw

/-- Until its opening is handled, a session is unopened. -/
theorem unopened_run (as : List Action) (h : ¬ OpenedIn env as n) :
  Unopened n (initial.run env as).toLink
  := by
  induction as using List.reverseRecOn with
  | nil => exact ⟨rfl, fun hs => nomatch hs⟩
  | append_singleton as a ih =>
    have ih := ih fun ho => h (ho.append [a])
    rw [run_concat]
    cases a with
    | act a =>
      apply unopened_act (coherent_run env as) ih
      rintro rfl ha
      apply h
      exact ⟨as, [], rfl, ha⟩
    | time now => apply ih
    | catalog c => apply ih
    | purge => apply ih
    | report r => apply ih

/-! ### Without interest -/

/-- Interest in a market begins with a subscription. -/
theorem not_mem_act (h : id ∉ s.subscribed) {a : Act} (ha : a ≠ .subscribe id) :
  id ∉ (s.act env a).subscribed
  := by
  cases a with
  | start =>
    obtain ⟨-, e⟩ | ⟨-, e⟩ := start_cases env s
    · rw [act, e]
      apply h
    · rw [act, e]
      apply h
  | stop =>
    obtain ⟨-, -, e⟩ | ⟨-, e⟩ := stop_cases env s
    · rw [act, e]
      apply h
    · rw [act, e]
      apply IdSet.not_mem_empty
  | subscribe b =>
    rw [act, subscribed_subscribe, IdSet.mem_insert, not_or]
    constructor
    · rintro rfl
      apply ha rfl
    · apply h
  | unsubscribe b =>
    rw [act, subscribed_unsubscribe, IdSet.mem_erase]
    exact fun hm => h hm.1
  | event n e =>
    obtain ⟨-, -, e⟩ | ⟨-, e | e | ⟨-, e⟩⟩ := deliver_cases env s n e
    · rw [act, e]
      apply h
    · rw [act, e]
      apply h
    · rw [act, e]
      apply h
    · rw [act, e]
      apply IdSet.not_mem_empty
  | ping generation due =>
    rw [act, toLink_pingTick]
    apply h
  | lose n => apply h
  | outage broken => apply h

/-- Without interest in a market, an act costs no message about it. -/
theorem switches_offers (hc : s.toLink.Coherent) (h : id ∉ s.subscribed) {a : Act}
    (ha : a ≠ .subscribe id) :
  switches id (s.offers env a) = []
  := by
  cases a with
  | stop =>
    rw [offers, withdrawals]
    split
    · rw [switches_unsubscribes, if_neg]
      rw [announced, IdSet.mem_diff]
      exact fun hm => h hm.1
    · rfl
  | subscribe b =>
    rw [offers]
    split
    · rw [switches_subscribe, if_neg]
      rintro rfl
      apply ha rfl
    · rfl
  | unsubscribe b =>
    rw [offers]
    split
    · rename_i hb
      rw [switches_unsubscribe, if_neg]
      rintro rfl
      apply h hb.2
    · rfl
  | event n e =>
    rw [offers]
    split
    · rename_i he
      rw [switches_subscribes, if_neg]
      rw [hc.pending_eq (by simp [he.2.2.2])]
      apply h
    · rfl
  | ping generation due =>
    rw [offers, pings]
    split
    · rfl
    · rfl
  | start => rfl
  | lose n => rfl
  | outage broken => rfl

/-- There is no interest in a market, and the session of a number was told nothing about it. -/
structure Quiet (n : Nat) (id : MarketId) (l : Link) : Prop where
  not_mem : id ∉ l.subscribed
  silent : switches id (l.transport.sentOn n) = []

theorem quiet_act (hc : s.toLink.Coherent) (h : Quiet n id s.toLink) {a : Act}
    (ha : a ≠ .subscribe id) :
  Quiet n id (s.act env a).toLink
  where
  not_mem := not_mem_act h.not_mem ha
  silent := by
    rw [sentOn_act hc, switches_append, h.silent, List.nil_append]
    split
    · apply switches_offers hc h.not_mem ha
    · rfl

/-- A market that is dropped before a session opens is quiet on that session. -/
theorem quiet_unsubscribe (hc : s.toLink.Coherent) (h : Unopened n s.toLink) :
  Quiet n id (s.act env (.unsubscribe id)).toLink
  where
  not_mem := by
    rw [act, subscribed_unsubscribe, IdSet.mem_erase]
    exact fun hm => hm.2 rfl
  silent := by
    have hu : Unopened n (s.act env (.unsubscribe id)).toLink := by
      apply unopened_act hc h
      simp
    rw [hu.silent]
    rfl

/-- A market that is dropped before a session opens stays quiet on that session until it is
subscribed again. -/
theorem quiet_run {before after : List Action} (h : ¬ OpenedIn env before n)
    (hs : .act (.subscribe id) ∉ after) :
  Quiet n id (initial.run env (before ++ .act (.unsubscribe id) :: after)).toLink
  := by
  have hc := coherent_run env before
  rw [run_append]
  apply And.right (a := Link.Coherent _)
  apply toLink_run_induction (P := fun l => l.Coherent ∧ Quiet n id l)
    (s := (initial.run env before).act env (.unsubscribe id)) after
  · constructor
    · apply coherent_act hc
    · apply quiet_unsubscribe hc (unopened_run before h)
  · intro s a ha ⟨hc, hq⟩
    constructor
    · apply coherent_act hc
    · apply quiet_act hc hq
      rintro rfl
      apply hs ha

/-! ### What the sessions are told -/

/-- In a run in which only sessions that were ended refuse messages, every session is told about
each market in turn that it is of interest and that it is not, and nothing before it opens.  An
open session was told last that a market is of interest exactly if it is.  A market that is dropped
before the session opens costs no message, and one that is still pending then costs one. -/
theorem sessions_told_after_run (env : Environment) {as : List Action} (h : Reliable as) :
  let s := initial.run env as
  (∀ n id, Alternating (switches id (s.transport.sentOn n))) ∧
    (∀ n, ¬ OpenedIn env as n → s.transport.sentOn n = []) ∧
    (s.state = .connected → s.transport.isOpen s.generation → ∀ id,
      (switches id (s.transport.sentOn s.generation)).getLast? = some true ↔
        id ∈ s.subscribed) ∧
    (∀ before id after n, as = before ++ .act (.unsubscribe id) :: after →
      ¬ OpenedIn env before n → .act (.subscribe id) ∉ after →
      switches id (s.transport.sentOn n) = []) ∧
    (∀ n, s.awaits n → s.transport.isOpen n →
      (s.act env (.event n .opened)).transport.sentOn n =
        s.pending.ids.map (subscribeMessage env))
  := by
  intro s
  have hc : s.toLink.Coherent := coherent_run env as
  have hl : s.toLink.Ledger := ledger_run env h
  and_intros
  · apply hl.alternating
  · intro n ho
    exact (unopened_run as ho).silent
  · apply hl.told
  · rintro before id after n rfl ho hs
    exact (quiet_run ho hs).silent
  · intro n ha ho
    obtain rfl := ha.2.1
    have ht : s.transport.accepts s.generation := by
      rw [hl.accepts_eq]
      apply ho
    rw [sentOn_act hc, hl.unopened ha.2.2, List.nil_append, if_pos ⟨ht, rfl⟩, offers,
      if_pos ⟨rfl, ha⟩]

/-- Of two markets, the one that is dropped before the session opens costs no message. -/
theorem sessions_told_of_one_market :
  let before := [.act (.subscribe ⟨"ADA/EUR"⟩), .act (.subscribe ⟨"BTC/EUR"⟩)]
  let as := before ++ .act (.unsubscribe ⟨"ADA/EUR"⟩) :: [.act (.event 1 .opened)]
  Reliable as ∧
    switches ⟨"ADA/EUR"⟩ ((initial.run .standard as).transport.sentOn 1) = []
  := by
  intro before as
  have hr : Reliable as := by simp [Reliable, as, before]
  obtain ⟨-, -, -, h, -⟩ := sessions_told_after_run .standard hr
  use hr
  apply h before _ _ _ rfl
  · rintro ⟨b, c, e, -⟩
    have hm : Action.act (.event 1 .opened) ∈ before := by
      rw [e]
      simp
    simp [before] at hm
  · simp

end QuoteFeed.Stream
