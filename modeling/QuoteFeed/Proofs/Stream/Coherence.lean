import QuoteFeed.Proofs.Stream.Run

/-!
# Coherence of the link

The fields of a link say the same thing in several ways: whether a session is held, whether it is
open, which markets still wait to be announced.  `Link.Coherent` says how they agree, and every run
of a stream keeps it (`coherent_run`).  Where there is a queue for the events of a session no run
fails, so that this is the link after every run (`fields_agree_after_run`).
-/

namespace QuoteFeed

/-- How the fields of a link agree. -/
structure Link.Coherent (l : Link) : Prop where
  /-- Until the session is open, all markets of interest are pending. -/
  pending_eq : l.state ≠ .connected → l.pending = l.subscribed
  /-- While the session is open, none is. -/
  pending_empty : l.state = .connected → l.pending = .empty
  handle_none : l.state = .disconnected → l.handle = none
  handle_some : l.state ≠ .disconnected → l.handle = some l.generation
  pinger_none : l.state ≠ .connected → l.pinger = none
  pinger_some : l.state = .connected → ∃ due, l.pinger = some ⟨l.generation, due⟩
  stopped : l.stopped → l.state = .disconnected
  /-- Only a stopped link holds interest without a session. -/
  idle : l.state = .disconnected → l.stopped = false → l.subscribed = .empty
  generation_eq : l.generation = l.transport.connects

namespace Link

variable {l : Link}

/-- While the session is open, its handle is held. -/
theorem Coherent.handle_connected (h : l.Coherent) (hs : l.state = .connected) :
  l.handle = some l.generation
  := by
  apply h.handle_some
  simp [hs]

/-- While a market is pending, the session is not open. -/
theorem Coherent.not_connected (h : l.Coherent) {id : MarketId} (hp : id ∈ l.pending) :
  l.state ≠ .connected
  := by
  intro hs
  rw [h.pending_empty hs] at hp
  apply IdSet.not_mem_empty id hp

/-- A transport with as many sessions does as well. -/
theorem Coherent.withTransport (h : l.Coherent) {t : Transport}
    (ht : t.connects = l.transport.connects) :
  { l with transport := t }.Coherent
  := { h with generation_eq := h.generation_eq.trans ht.symm }

theorem Coherent.post (h : l.Coherent) (ms : List Outbound) :
  (l.post ms).Coherent
  := h.withTransport (by simp)

theorem Coherent.silence (h : l.Coherent) (n : Nat) :
  (l.silence n).Coherent
  := h.withTransport (by simp [Transport.ignore])

/-- A link that was reset is coherent. -/
theorem coherent_reset (h : l.generation = l.transport.connects) :
  l.reset.Coherent
  where
  pending_eq _ := rfl
  pending_empty hs := nomatch hs
  handle_none _ := rfl
  handle_some hs := absurd rfl hs
  pinger_none _ := rfl
  pinger_some hs := nomatch hs
  stopped _ := rfl
  idle _ _ := rfl
  generation_eq := h

/-- A link that asked for a session is coherent, if its markets of interest are pending. -/
theorem coherent_ask (hp : l.pending = l.subscribed) (hk : l.pinger = none)
    (hs : l.stopped = false) (hg : l.generation = l.transport.connects) :
  l.ask.Coherent
  where
  pending_eq _ := hp
  pending_empty hs := nomatch hs
  handle_none hs := nomatch hs
  handle_some _ := by
    change some l.transport.connect.connects = some (l.generation + 1)
    rw [Transport.connects_connect, hg]
  pinger_none _ := hk
  pinger_some hs := nomatch hs
  stopped ht := by
    have ht : l.stopped = true := ht
    rw [hs] at ht
    contradiction
  idle hs := nomatch hs
  generation_eq := by
    change l.generation + 1 = l.transport.connect.connects
    rw [Transport.connects_connect, hg]

/-- A session that opens leaves a coherent link coherent. -/
theorem Coherent.connect (h : l.Coherent) (hs : l.state = .connecting) (env : Environment)
    (due : Option Nat) :
  (l.connect env due).Coherent
  where
  pending_eq hc := absurd rfl hc
  pending_empty _ := rfl
  handle_none hd := nomatch hd
  handle_some _ := h.handle_some (by simp [hs])
  pinger_none hc := absurd rfl hc
  pinger_some _ := ⟨due, rfl⟩
  stopped ht := by
    have hd := h.stopped ht
    rw [hs] at hd
    contradiction
  idle hd := nomatch hd
  generation_eq := by
    rw [Link.connect, Link.post, Transport.connects_post]
    apply h.generation_eq

theorem Coherent.rewind (h : l.Coherent) (n : Nat) (due : Option Nat) :
  (l.rewind n due).Coherent
  := { h with
    pinger_none := fun hs => by
      rw [Link.rewind, h.pinger_none hs]
      rfl
    pinger_some := fun hs => by
      obtain ⟨old, hp⟩ := h.pinger_some hs
      rw [Link.rewind, hp]
      by_cases hn : l.generation = n
      · use due
        simp [hn]
      · use old
        simp [hn] }

end Link

namespace Stream

variable {env : Environment} {s : Stream}

theorem coherent_start (h : s.toLink.Coherent) :
  (s.start env).toLink.Coherent
  := by
  obtain ⟨hs, e⟩ | ⟨hs, e⟩ := start_cases env s
  · rw [e]
    have hc : s.state ≠ .connected := by simp [hs]
    apply Link.coherent_ask (l := s.toLink.setStopped false)
    · apply h.pending_eq hc
    · apply h.pinger_none hc
    · rfl
    · apply h.generation_eq
  · rw [e]
    exact { h with
      stopped := fun ht => nomatch ht
      idle := fun hd => absurd hd hs }

theorem coherent_stop (h : s.toLink.Coherent) :
  (s.stop env).toLink.Coherent
  := by
  obtain ⟨hs, -, e⟩ | ⟨-, e⟩ := stop_cases env s
  · rw [e]
    exact { h with
      stopped := fun _ => hs
      idle := fun _ ht => nomatch ht }
  · rw [e]
    apply Link.coherent_reset
    simp [Link.post, Link.hangUp, Link.setStopped, h.generation_eq]

theorem coherent_subscribe (h : s.toLink.Coherent) (id : MarketId) :
  (s.subscribe env id).toLink.Coherent
  := by
  obtain ⟨-, e⟩ | ⟨-, hs, e⟩ | ⟨-, hs, ht, e⟩ | ⟨-, hs, ht, e⟩ := subscribe_cases env s id
  · rw [e]
    apply h
  · rw [e]
    apply Link.Coherent.post
    exact { h with
      pending_eq := fun hc => absurd hs hc
      idle := fun hd => nomatch hs.symm.trans hd }
  · rw [e]
    exact { h with
      pending_eq := fun _ => congrArg (IdSet.insert · id) (h.pending_eq hs)
      pending_empty := fun hc => absurd hc hs
      idle := fun hd hf => by
        obtain ht | ht := ht
        · exact nomatch ht.symm.trans hf
        · exact nomatch ht.symm.trans hd }
  · rw [e]
    have hc : s.state ≠ .connected := by simp [hs]
    apply Link.coherent_ask (l := s.toLink.defer id)
    · apply congrArg (IdSet.insert · id) (h.pending_eq hc)
    · apply h.pinger_none hc
    · apply ht
    · apply h.generation_eq

theorem coherent_unsubscribe (h : s.toLink.Coherent) (id : MarketId) :
  (s.unsubscribe env id).toLink.Coherent
  := by
  obtain ⟨-, e⟩ | ⟨hm, hp, e⟩ | ⟨-, -, hs, e⟩ | ⟨hm, hp, hs, -⟩ := unsubscribe_cases env s id
  · rw [e]
    apply h
  · rw [e]
    exact { h with
      pending_eq := fun hc => congrArg (IdSet.erase · id) (h.pending_eq hc)
      pending_empty := fun hc => absurd hc (h.not_connected hp)
      idle := fun hd ht => by
        rw [h.idle hd ht] at hm
        apply absurd hm (IdSet.not_mem_empty id) }
  · rw [e]
    apply Link.Coherent.post
    exact { h with
      pending_eq := fun hc => absurd hs hc
      idle := fun hd => nomatch hs.symm.trans hd }
  · rw [h.pending_eq hs] at hp
    contradiction

theorem coherent_deliver (h : s.toLink.Coherent) (n : Nat) (e : SessionEvent) :
  (s.deliver env n e).toLink.Coherent
  := by
  obtain ⟨-, ha, e⟩ | ⟨-, e | e | ⟨-, e⟩⟩ := deliver_cases env s n e
  · rw [e]
    apply h.connect ha.2.2
  · rw [e]
    apply h
  · rw [e]
    apply h.silence
  · rw [e]
    apply Link.Coherent.silence
    apply Link.coherent_reset h.generation_eq

theorem coherent_pingTick (h : s.toLink.Coherent) (generation due : Nat) :
  (s.pingTick env generation due).toLink.Coherent
  := by
  rw [toLink_pingTick]
  apply Link.Coherent.rewind
  apply h.post

/-- Every act keeps the link coherent. -/
theorem coherent_act (h : s.toLink.Coherent) (a : Act) :
  (s.act env a).toLink.Coherent
  := by
  cases a with
  | start => apply coherent_start h
  | stop => apply coherent_stop h
  | subscribe id => apply coherent_subscribe h
  | unsubscribe id => apply coherent_unsubscribe h
  | event n e => apply coherent_deliver h
  | ping generation due => apply coherent_pingTick h
  | lose n => apply Link.Coherent.withTransport h (Transport.connects_modify _ _ _)
  | outage broken => apply Link.Coherent.withTransport h (t := { s.transport with broken }) rfl

/-- Every action does. -/
theorem coherent_step (h : s.toLink.Coherent) (a : Action) :
  (s.step env a).toLink.Coherent
  := by
  cases a with
  | act a => apply coherent_act h
  | _ => apply h

theorem coherent_initial :
  initial.toLink.Coherent
  := Link.coherent_reset (l := initial.toLink) rfl

/-- The link is coherent after every run. -/
theorem coherent_run (env : Environment) (as : List Action) :
  (initial.run env as).toLink.Coherent
  := toLink_run_induction as coherent_initial fun _ a _ h => coherent_act h a

/-- If there is a queue for the events of a session, every run succeeds, and after it, whether a
session is held, whether pings go out, which markets are pending and how many sessions were asked
for all follow from the state, the stop and the markets of interest. -/
theorem fields_agree_after_run (env : Environment)
    (hq : IsQueue env.settings.stream.eventBuffer) (as : List Action) :
  ∃ s, initial.run? env as = some s ∧
    (s.state ≠ .connected → s.pending = s.subscribed) ∧
    (s.state = .connected → s.pending = .empty) ∧
    (s.handle.isSome ↔ s.state ≠ .disconnected) ∧
    (s.pinger.isSome ↔ s.state = .connected) ∧
    (s.stopped → s.state = .disconnected) ∧
    (s.state = .disconnected → s.stopped = false → s.subscribed = .empty) ∧
    s.generation = s.transport.connects
  := by
  use initial.run env as, run?_eq_some hq as
  generalize hs : initial.run env as = s
  have h : s.toLink.Coherent := hs ▸ coherent_run env as
  have hh : s.handle.isSome ↔ s.state ≠ .disconnected := by
    constructor
    · rintro hs hd
      simp [h.handle_none hd] at hs
    · intro hs
      simp [h.handle_some hs]
  have hp : s.pinger.isSome ↔ s.state = .connected := by
    constructor
    · intro hs
      by_contra hc
      simp [h.pinger_none hc] at hs
    · intro hc
      obtain ⟨due, e⟩ := h.pinger_some hc
      simp [e]
  exact ⟨h.pending_eq, h.pending_empty, hh, hp, h.stopped, h.idle, h.generation_eq⟩

/-- A run that ends with a market held while the stream is stopped, after a session that opened. -/
def heldRun : List Action :=
  [.act .start, .act (.subscribe ⟨"BTC-EUR"⟩), .act (.event 1 .opened), .act .stop,
    .act (.subscribe ⟨"ETH-EUR"⟩)]

/-- The market is pending at its end, though neither a session nor a timer is held. -/
theorem fields_agree_after_held_run :
  IsQueue Environment.standard.settings.stream.eventBuffer ∧
    ∃ s, initial.run? .standard heldRun = some s ∧ s.state = .disconnected ∧ s.stopped ∧
      s.pending.ids = [⟨"ETH-EUR"⟩] ∧ s.pending = s.subscribed ∧ s.handle.isSome = false ∧
      s.pinger.isSome = false ∧ s.transport.connects = 1 ∧ s.generation = 1
  := by
  have hq : IsQueue Environment.standard.settings.stream.eventBuffer := by decide +kernel
  obtain ⟨s, hs, hp, -, hh, hk, -, -, hg⟩ := fields_agree_after_run .standard hq heldRun
  obtain rfl : initial.run .standard heldRun = s :=
    Option.some.inj ((run?_eq_some hq heldRun).symm.trans hs)
  have hd : (initial.run .standard heldRun).state = .disconnected := by decide +kernel
  have hc : (initial.run .standard heldRun).transport.connects = 1 := by decide +kernel
  refine ⟨hq, _, hs, hd, by decide +kernel, by decide +kernel, ?_, ?_, ?_, hc, hg.trans hc⟩
  · apply hp
    simp [hd]
  · simpa [hd] using hh
  · simpa [hd] using hk

end Stream

end QuoteFeed
