import QuoteFeed.Proofs.Stream.Coherence
import QuoteFeed.Proofs.Stream.Switches

/-!
# What the exchange was told

`Link.Ledger` relates the messages that the sessions took to the markets of interest.  On every
session each market is switched on and off in turn, no session is spoken to before it opened, and
what an open session was told last about each market is what the link says.  Every act keeps the
ledger (`ledger_act`) as long as messages are refused only on sessions that were ended.
-/

namespace QuoteFeed

/-- The messages taken so far agree with the link. -/
structure Link.Ledger (l : Link) : Prop where
  /-- Only sessions that were ended refuse messages. -/
  reliable : l.transport.broken = false
  alternating : ∀ n id, Alternating (switches id (l.transport.sentOn n))
  /-- Sessions that were not asked for took nothing. -/
  ahead : ∀ n, l.generation < n → l.transport.sentOn n = []
  unopened : l.state = .connecting → l.transport.sentOn l.generation = []
  /-- What the session was told last about a market is whether there is interest. -/
  told : l.state = .connected → l.transport.isOpen l.generation →
    ∀ id, (switches id (l.transport.sentOn l.generation)).getLast? = some true ↔ id ∈ l.subscribed

namespace Transport

variable {t : Transport} {n : Nat} {ms : List Outbound} {b : Bool} {p : MarketId → Prop}
  [DecidablePred p]

/-- What a session was told about a market, after it was offered messages of one kind. -/
theorem switches_sentOn_post (hms : ∀ id, switches id ms = if p id then [b] else [])
    (ha : t.accepts n) (id : MarketId) :
  switches id ((t.post (some n) ms).sentOn n) =
    switches id (t.sentOn n) ++ if p id then [b] else []
  := by
  rw [sentOn_post, if_pos ⟨rfl, ha⟩, switches_append, hms]

/-- Messages of one kind keep a market's switches in turn, if none of them repeats the last. -/
theorem alternating_post (h : ∀ k id, Alternating (switches id (t.sentOn k)))
    (hms : ∀ id, switches id ms = if p id then [b] else [])
    (hp : t.accepts n → ∀ id, p id → (switches id (t.sentOn n)).getLast?.getD false ≠ b)
    (k : Nat) (id : MarketId) :
  Alternating (switches id ((t.post (some n) ms).sentOn k))
  := by
  by_cases hk : k = n ∧ t.accepts n
  · obtain ⟨rfl, ha⟩ := hk
    rw [switches_sentOn_post hms ha]
    by_cases hid : p id
    · rw [if_pos hid]
      apply (h k id).concat (hp ha id hid)
    · rw [if_neg hid, List.append_nil]
      apply h
  · rw [sentOn_post, if_neg hk]
    apply h

/-- Other sessions take nothing. -/
theorem sentOn_post_of_ne {k : Nat} (h : k ≠ n) :
  (t.post (some n) ms).sentOn k = t.sentOn k
  := by
  rw [sentOn_post, if_neg fun hk => h hk.1]

end Transport

namespace Link.Ledger

variable {l : Link}

/-- On a transport that works, a session takes messages as long as it is open. -/
theorem accepts_eq (h : l.Ledger) (n : Nat) :
  l.transport.accepts n = l.transport.isOpen n
  := by
  rw [Transport.accepts, h.reliable]
  rfl

/-- Messages of one kind on the open session, after which there is interest in the markets of
`subscribed`. -/
theorem post (h : l.Ledger) (hs : l.state = .connected) (hh : l.handle = some l.generation)
    {ms : List Outbound} {b : Bool} {p : MarketId → Prop} [DecidablePred p]
    (hms : ∀ id, switches id ms = if p id then [b] else []) (subscribed : IdSet)
    (hp : ∀ id, p id → (id ∈ l.subscribed ↔ b = false))
    (hsub : ∀ id, id ∈ subscribed ↔ if p id then b = true else id ∈ l.subscribed) :
  ({ l with subscribed }.post ms).Ledger
  := by
  have ht : ({ l with subscribed }.post ms).transport
      = l.transport.post (some l.generation) ms := by
    rw [Link.post, hh]
  constructor
  · rw [ht, Transport.broken_post, h.reliable]
  · rw [ht]
    apply Transport.alternating_post h.alternating hms
    intro ha id hid
    rw [h.accepts_eq] at ha
    apply getLast?_ne
    apply (h.told hs ha id).trans (hp id hid)
  · intro n hn
    have hn : l.generation < n := hn
    rw [ht, Transport.sentOn_post_of_ne (Nat.ne_of_gt hn)]
    apply h.ahead n hn
  · intro hc
    have hc : l.state = .connecting := hc
    rw [hs] at hc
    contradiction
  · intro _ ho id
    rw [ht] at ho ⊢
    change (l.transport.post (some l.generation) ms).isOpen l.generation at ho
    rw [Transport.isOpen_post] at ho
    have ha : l.transport.accepts l.generation := by rw [h.accepts_eq, ho]
    apply Iff.trans (b := (switches id (l.transport.sentOn l.generation)
      ++ if p id then [b] else []).getLast? = some true)
    · rw [← Transport.switches_sentOn_post hms ha id]
      rfl
    · apply Iff.trans _ (hsub id).symm
      by_cases hid : p id
      · simp [hid]
      · simp [hid, h.told hs ho id]

/-- A transport that took the same messages and opened no session does as well. -/
theorem withTransport (h : l.Ledger) {t : Transport} (hb : t.broken = false)
    (hsent : ∀ n, t.sentOn n = l.transport.sentOn n)
    (hopen : t.isOpen l.generation → l.transport.isOpen l.generation) :
  { l with transport := t }.Ledger
  := by
  constructor
  · apply hb
  · intro n id
    rw [hsent]
    apply h.alternating
  · intro n hn
    rw [hsent]
    apply h.ahead n hn
  · intro hs
    rw [hsent]
    apply h.unopened hs
  · intro hs ho id
    rw [hsent]
    apply h.told hs (hopen ho)

/-- While no session is open, interest may change at will. -/
theorem interest (h : l.Ledger) (hs : l.state ≠ .connected) (subscribed pending : IdSet) :
  { l with subscribed, pending }.Ledger
  := ⟨h.reliable, h.alternating, h.ahead, h.unopened, fun hc => absurd hc hs⟩

/-- A session that was just asked for was told nothing. -/
theorem ask (h : l.Ledger) :
  l.ask.Ledger
  where
  reliable := h.reliable
  alternating := h.alternating
  ahead n hn := h.ahead n (Nat.lt_of_succ_lt hn)
  unopened _ := h.ahead _ (Nat.lt_succ_self _)
  told hs := nomatch hs

/-- What was told before a link is reset stays in turn. -/
theorem reset (h : l.Ledger) :
  l.reset.Ledger
  where
  reliable := h.reliable
  alternating := h.alternating
  ahead := h.ahead
  unopened hs := nomatch hs
  told hs := nomatch hs

theorem hangUp (h : l.Ledger) :
  l.hangUp.Ledger
  := by
  apply h.withTransport
  · rw [Transport.broken_hangUp, h.reliable]
  · simp
  · apply Transport.isOpen_of_hangUp

theorem silence (h : l.Ledger) (n : Nat) :
  (l.silence n).Ledger
  := by
  apply h.withTransport
  · simp [Transport.ignore, h.reliable]
  · simp [Transport.ignore]
  · apply Transport.isOpen_of_ignore

/-- A session that opens is told about the pending markets, which are all markets of interest. -/
theorem connect (h : l.Ledger) (hc : l.Coherent) (hs : l.state = .connecting)
    (env : Environment) (due : Option Nat) :
  (l.connect env due).Ledger
  := by
  have hd : l.state ≠ .disconnected := by simp [hs]
  have hn : l.state ≠ .connected := by simp [hs]
  have fresh : { l with state := .connected, pending := .empty, subscribed := .empty }.Ledger := by
    constructor
    · apply h.reliable
    · apply h.alternating
    · apply h.ahead
    · intro hc
      exact nomatch hc
    · intro _ _ id
      simp [h.unopened hs, switches]
  have flushed := fresh.post rfl (hc.handle_some hd) (b := true) (p := (· ∈ l.pending))
    (fun id => switches_subscribes env id l.pending) l.subscribed
    (by simp) (by simp [hc.pending_eq hn])
  exact ⟨flushed.reliable, flushed.alternating, flushed.ahead, flushed.unopened, flushed.told⟩

end Link.Ledger

namespace Stream

variable {env : Environment} {s : Stream}

theorem ledger_start (h : s.toLink.Ledger) :
  (s.start env).toLink.Ledger
  := by
  have h' : (s.toLink.setStopped false).Ledger :=
    ⟨h.reliable, h.alternating, h.ahead, h.unopened, h.told⟩
  obtain ⟨-, e⟩ | ⟨-, e⟩ := start_cases env s
  · rw [e]
    apply h'.ask
  · rw [e]
    apply h'

theorem ledger_stop (h : s.toLink.Ledger) (hc : s.toLink.Coherent) :
  (s.stop env).toLink.Ledger
  := by
  have h' : (s.toLink.setStopped true).Ledger :=
    ⟨h.reliable, h.alternating, h.ahead, h.unopened, h.told⟩
  obtain ⟨-, -, e⟩ | ⟨-, e⟩ := stop_cases env s
  · rw [e]
    apply h'
  · rw [e]
    by_cases hs : s.state = .connected
    · have told := h'.post hs (hc.handle_connected hs) (b := false) (p := (· ∈ s.announced))
        (fun id => switches_unsubscribes env id s.announced) s.pending
        (by simp +contextual [announced, Link.setStopped])
        (by simp [announced, Link.setStopped, hc.pending_empty hs])
      rw [withdrawals, if_pos hs]
      apply told.hangUp.reset
    · rw [withdrawals, if_neg hs, Link.post, Transport.post_nil]
      apply h'.hangUp.reset

theorem ledger_subscribe (h : s.toLink.Ledger) (hc : s.toLink.Coherent) (id : MarketId) :
  (s.subscribe env id).toLink.Ledger
  := by
  obtain ⟨-, e⟩ | ⟨hm, hs, e⟩ | ⟨-, hs, -, e⟩ | ⟨-, hs, -, e⟩ := subscribe_cases env s id
  · rw [e]
    apply h
  · rw [e]
    apply h.post hs (hc.handle_connected hs) (b := true) (p := (· = id))
    · intro a
      apply switches_subscribe
    · rintro a rfl
      simp [hm]
    · intro a
      rw [IdSet.mem_insert]
      by_cases ha : a = id
      · simp [ha]
      · simp [ha]
  · rw [e]
    apply h.interest hs
  · rw [e]
    apply Link.Ledger.ask
    apply h.interest (by simp [hs])

theorem ledger_unsubscribe (h : s.toLink.Ledger) (hc : s.toLink.Coherent) (id : MarketId) :
  (s.unsubscribe env id).toLink.Ledger
  := by
  obtain ⟨-, e⟩ | ⟨-, hp, e⟩ | ⟨hm, -, hs, e⟩ | ⟨hm, hp, hs, -⟩ := unsubscribe_cases env s id
  · rw [e]
    apply h
  · rw [e]
    apply h.interest (hc.not_connected hp)
  · rw [e]
    apply h.post hs (hc.handle_connected hs) (b := false) (p := (· = id))
    · intro a
      apply switches_unsubscribe
    · rintro a rfl
      simp [hm]
    · intro a
      rw [IdSet.mem_erase]
      by_cases ha : a = id
      · simp [ha]
      · simp [ha]
  · rw [hc.pending_eq hs] at hp
    contradiction

theorem ledger_deliver (h : s.toLink.Ledger) (hc : s.toLink.Coherent) (n : Nat)
    (e : SessionEvent) :
  (s.deliver env n e).toLink.Ledger
  := by
  obtain ⟨-, ha, e⟩ | ⟨-, e | e | ⟨-, e⟩⟩ := deliver_cases env s n e
  · rw [e]
    apply h.connect hc ha.2.2
  · rw [e]
    apply h
  · rw [e]
    apply h.silence
  · rw [e]
    apply h.reset.silence

theorem ledger_pingTick (h : s.toLink.Ledger) (hc : s.toLink.Coherent) (generation due : Nat) :
  (s.pingTick env generation due).toLink.Ledger
  := by
  have h' : (s.toLink.post (s.pings generation)).Ledger := by
    rw [pings]
    split
    · rename_i hg
      apply h.post hg.2 (hc.handle_connected hg.2) (b := true) (p := fun _ => False)
      · simp
      · simp
      · simp
    · rw [Link.post, Transport.post_nil]
      apply h
  rw [toLink_pingTick]
  exact ⟨h'.reliable, h'.alternating, h'.ahead, h'.unopened, h'.told⟩

/-- Every act keeps the ledger, unless the transport breaks. -/
theorem ledger_act (h : s.toLink.Ledger) (hc : s.toLink.Coherent) {a : Act}
    (ha : a ≠ .outage true) :
  (s.act env a).toLink.Ledger
  := by
  cases a with
  | start => apply ledger_start h
  | stop => apply ledger_stop h hc
  | subscribe id => apply ledger_subscribe h hc
  | unsubscribe id => apply ledger_unsubscribe h hc
  | event n e => apply ledger_deliver h hc
  | ping generation due => apply ledger_pingTick h hc
  | lose n =>
    apply Link.Ledger.withTransport h
    · simp [Transport.lose, h.reliable]
    · simp [Transport.lose]
    · apply Transport.isOpen_of_lose
  | outage broken =>
    have hb : broken = false := by
      cases broken with
      | false => rfl
      | true => apply absurd rfl ha
    apply Link.Ledger.withTransport h (t := { s.transport with broken }) hb
    · intro n
      rfl
    · apply id

theorem ledger_initial :
  initial.toLink.Ledger
  where
  reliable := rfl
  alternating _ _ := alternating_nil
  ahead _ _ := rfl
  unopened _ := rfl
  told hs := nomatch hs

/-- In the run sessions refuse messages only after they were ended. -/
def Reliable (as : List Action) : Prop :=
  .act (.outage true) ∉ as

/-- The ledger is kept by every run on a transport that works. -/
theorem ledger_run (env : Environment) {as : List Action} (h : Reliable as) :
  (initial.run env as).toLink.Ledger
  := by
  apply And.right (a := (initial.run env as).toLink.Coherent)
  apply toLink_run_induction (P := fun l => l.Coherent ∧ l.Ledger) as
  · exact ⟨coherent_initial, ledger_initial⟩
  · intro s a ha ⟨hc, hl⟩
    constructor
    · apply coherent_act hc
    · apply ledger_act hl hc
      rintro rfl
      apply h ha

end Stream

end QuoteFeed
