import QuoteFeed.Proofs.Stream.Books
import QuoteFeed.Proofs.Stream.Transport

/-!
# The link of a stream

What each operation of a stream does to its link.  Notes, metrics and quotes have no influence on
the link, so that each operation has a few cases, told apart by the link alone.  The cases of an
operation (`start_cases`, `stop_cases`, `subscribe_cases`, `unsubscribe_cases`, `deliver_cases`) name all
that it can do.
-/

namespace QuoteFeed

namespace Link

/-- The link after it was stopped, or a stop was lifted. -/
def setStopped (l : Link) (stopped : Bool) : Link :=
  { l with stopped }

/-- The link with one more market of interest. -/
def want (l : Link) (id : MarketId) : Link :=
  { l with subscribed := l.subscribed.insert id }

/-- The link with one more market of interest, which is pending. -/
def defer (l : Link) (id : MarketId) : Link :=
  { l with subscribed := l.subscribed.insert id, pending := l.pending.insert id }

/-- The link with one market of interest less. -/
def drop (l : Link) (id : MarketId) : Link :=
  { l with subscribed := l.subscribed.erase id }

/-- The link with one market of interest less, which was pending. -/
def undefer (l : Link) (id : MarketId) : Link :=
  { l with subscribed := l.subscribed.erase id, pending := l.pending.erase id }

/-- The link after messages were offered to the session that is held. -/
def post (l : Link) (ms : List Outbound) : Link :=
  { l with transport := l.transport.post l.handle ms }

/-- The link after a session was asked for. -/
def ask (l : Link) : Link :=
  { l with
    state := .connecting
    generation := l.generation + 1
    handle := some l.transport.connect.connects
    transport := l.transport.connect }

/-- The link after the handle that is held was closed. -/
def hangUp (l : Link) : Link :=
  { l with transport := l.transport.hangUp l.handle }

/-- The link without a session and without interest. -/
def reset (l : Link) : Link :=
  { l with
    state := .disconnected
    handle := none
    subscribed := .empty
    pending := .empty
    pinger := none }

/-- The link after the session opened: the pending markets are announced, and pings begin. -/
def connect (env : Environment) (l : Link) (due : Option Nat) : Link :=
  { { l with state := .connected, pending := .empty }.post
      (l.pending.ids.map (Stream.subscribeMessage env)) with
    pinger := some ⟨l.generation, due⟩ }

/-- The link after the events of a session are no longer heard. -/
def silence (l : Link) (generation : Nat) : Link :=
  { l with transport := l.transport.ignore generation }

/-- The link after the timer that pings a generation was set. -/
def rewind (l : Link) (generation : Nat) (due : Option Nat) : Link :=
  { l with pinger := l.pinger.map fun p => if p.generation = generation then { p with due } else p }

end Link

namespace Stream

variable (env : Environment) (s : Stream)

/-! ### Sending -/

/-- Sending offers the message to the session that is held. -/
theorem toLink_send (m : Outbound) :
  (s.send m).toLink = s.toLink.post [m]
  := by
  cases h : s.handle with
  | none =>
    have hs : s.send m = s := by simp only [send, h]
    have hp : s.transport.post s.handle [m] = s.transport := by rw [h]; rfl
    rw [hs, Link.post, hp]
  | some n =>
    by_cases ha : s.transport.accepts n
    · have hs : (s.send m).toLink = { s.toLink with transport := s.transport.record n m } := by
        simp only [send, h, if_pos ha]
        rfl
      have hp : s.transport.post s.handle [m] = s.transport.record n m := by
        rw [h, Transport.post, if_pos ha]
        rfl
      rw [hs, Link.post, hp]
    · have hs : s.send m = s.note (.frameRefused s.generation) := by
        simp only [send, h, if_neg ha]
      have hp : s.transport.post s.handle [m] = s.transport := by
        rw [h, Transport.post, if_neg ha]
      rw [hs, Link.post, hp]
      rfl

/-- Sending messages one after the other offers them all. -/
theorem toLink_sendAll (ms : List Outbound) :
  (s.sendAll ms).toLink = s.toLink.post ms
  := by
  induction ms generalizing s with
  | nil => simp [sendAll, Link.post]
  | cons m ms ih =>
    have h := ih (s.send m)
    rw [toLink_send, sendAll] at h
    rw [sendAll, List.foldl_cons, h]
    simp only [Link.post, Transport.post_post]
    rfl

/-! ### Opening and ending a session -/

/-- A session is asked for, unless there is one. -/
theorem toLink_requestSession :
  (s.requestSession env).toLink = if s.state = .disconnected then s.toLink.ask else s.toLink
  := by
  rw [requestSession]
  split
  · rfl
  · rfl

theorem toLink_closeHandle :
  s.closeHandle.toLink = s.toLink.hangUp
  := by
  cases h : s.handle with
  | none =>
    have hc : s.closeHandle = s := by rw [closeHandle, h]
    have ht : s.transport.hangUp s.handle = s.transport := by rw [h]; rfl
    rw [hc, Link.hangUp, ht]
  | some n =>
    have hc : s.closeHandle = { s with transport := s.transport.close n } := by rw [closeHandle, h]
    have ht : s.transport.hangUp s.handle = s.transport.close n := by rw [h]; rfl
    rw [hc, Link.hangUp, ht]

/-- A start lifts a stop, and asks for a session unless there is one. -/
theorem start_cases :
  (s.state = .disconnected ∧ (s.start env).toLink = (s.toLink.setStopped false).ask)
    ∨ (s.state ≠ .disconnected ∧ (s.start env).toLink = s.toLink.setStopped false)
  := by
  rw [start, toLink_requestSession]
  by_cases h : s.state = .disconnected
  · left
    use h
    apply if_pos h
  · right
    use h
    apply if_neg h

/-- The messages that take the announced markets back, while the session is open. -/
def withdrawals : List Outbound :=
  if s.state = .connected then s.announced.ids.map (unsubscribeMessage env) else []

theorem toLink_withdraw :
  (s.withdraw env).toLink = s.toLink.post (s.withdrawals env)
  := by
  rw [withdraw, withdrawals]
  split
  · apply toLink_sendAll
  · simp [Link.post]

/-- A stop marks the link as stopped.  If a session is held or the link is not disconnected, the
announced markets are taken back, the session is closed and the link is reset. -/
theorem stop_cases :
  (s.state = .disconnected ∧ s.handle = none ∧
      (s.stop env).toLink = s.toLink.setStopped true)
    ∨ (¬ (s.state = .disconnected ∧ s.handle = none) ∧
      (s.stop env).toLink =
        ((s.toLink.setStopped true).post (s.withdrawals env)).hangUp.reset)
  := by
  by_cases h : s.state = .disconnected ∧ s.handle = none
  · left
    use h.1, h.2
    have h' : s.state = .disconnected ∧ s.handle.isNone := by simpa using h
    apply congrArg toLink (if_pos h')
  · right
    use h
    have h' : ¬ (s.state = .disconnected ∧ s.handle.isNone) := by simpa using h
    have hw := toLink_withdraw env { s with stopped := true }
    have hc := toLink_closeHandle ({ s with stopped := true }.withdraw env)
    rw [hw] at hc
    apply Eq.trans (congrArg toLink (if_neg h'))
    apply congrArg Link.reset hc

/-! ### Interest in markets -/

variable (id : MarketId)

/-- A new market is announced on an open session, held on a stopped link, and deferred otherwise;
the first that is deferred asks for a session. -/
theorem subscribe_cases :
  (id ∈ s.subscribed ∧ s.subscribe env id = s)
    ∨ (id ∉ s.subscribed ∧ s.state = .connected ∧
      (s.subscribe env id).toLink = (s.toLink.want id).post [subscribeMessage env id])
    ∨ (id ∉ s.subscribed ∧ s.state ≠ .connected ∧ (s.stopped ∨ s.state = .connecting) ∧
      (s.subscribe env id).toLink = s.toLink.defer id)
    ∨ (id ∉ s.subscribed ∧ s.state = .disconnected ∧ s.stopped = false ∧
      (s.subscribe env id).toLink = (s.toLink.defer id).ask)
  := by
  by_cases hm : id ∈ s.subscribed
  · left
    use hm
    apply if_pos hm
  · right
    by_cases hs : s.state = .connected
    · left
      use hm, hs
      rw [subscribe, if_neg hm]
      apply Eq.trans (congrArg toLink (if_pos hs))
      apply toLink_send
    · right
      rw [subscribe, if_neg hm]
      by_cases ht : s.stopped
      · left
        use hm, hs, .inl ht
        apply congrArg toLink ((if_neg hs).trans (if_pos ht))
      · by_cases hd : s.state = .disconnected
        · right
          use hm, hd, by simpa using ht
          apply Eq.trans (congrArg toLink ((if_neg hs).trans (if_neg ht)))
          apply Eq.trans (toLink_requestSession env _)
          apply if_pos hd
        · left
          have hc : s.state = .connecting := by
            cases h : s.state with
            | disconnected => apply absurd h hd
            | connecting => rfl
            | connected => apply absurd h hs
          use hm, hs, .inr hc
          apply Eq.trans (congrArg toLink ((if_neg hs).trans (if_neg ht)))
          apply Eq.trans (toLink_requestSession env _)
          apply if_neg hd

/-- A market that is pending is dropped without a message, one that was announced on an open
session with one. -/
theorem unsubscribe_cases :
  (id ∉ s.subscribed ∧ s.unsubscribe env id = s)
    ∨ (id ∈ s.subscribed ∧ id ∈ s.pending ∧
      (s.unsubscribe env id).toLink = s.toLink.undefer id)
    ∨ (id ∈ s.subscribed ∧ id ∉ s.pending ∧ s.state = .connected ∧
      (s.unsubscribe env id).toLink = (s.toLink.drop id).post [unsubscribeMessage env id])
    ∨ (id ∈ s.subscribed ∧ id ∉ s.pending ∧ s.state ≠ .connected ∧
      (s.unsubscribe env id).toLink = s.toLink.drop id)
  := by
  by_cases hm : id ∈ s.subscribed
  · right
    rw [unsubscribe, if_pos hm]
    by_cases hp : id ∈ s.pending
    · left
      use hm, hp
      apply congrArg toLink (if_pos hp)
    · right
      by_cases hs : s.state = .connected
      · left
        use hm, hp, hs
        apply Eq.trans (congrArg toLink ((if_neg hp).trans (if_pos hs)))
        apply toLink_send
      · right
        use hm, hp, hs
        apply congrArg toLink ((if_neg hp).trans (if_neg hs))
  · left
    use hm
    apply if_neg hm

/-- In every state there is interest in a market that was subscribed. -/
theorem subscribed_subscribe :
  (s.subscribe env id).subscribed = s.subscribed.insert id
  := by
  obtain ⟨hm, e⟩ | ⟨-, -, e⟩ | ⟨-, -, -, e⟩ | ⟨-, -, -, e⟩ := subscribe_cases env s id
  · rw [e]
    apply IdSet.ext
    intro a
    rw [IdSet.mem_insert, iff_or_self]
    rintro rfl
    apply hm
  · rw [e]
    rfl
  · rw [e]
    rfl
  · rw [e]
    rfl

/-- In every state there is no interest in a market that was unsubscribed. -/
theorem subscribed_unsubscribe :
  (s.unsubscribe env id).subscribed = s.subscribed.erase id
  := by
  obtain ⟨hm, e⟩ | ⟨-, -, e⟩ | ⟨-, -, -, e⟩ | ⟨-, -, -, e⟩ := unsubscribe_cases env s id
  · rw [e]
    apply IdSet.ext
    intro a
    rw [IdSet.mem_erase, iff_self_and]
    rintro ha rfl
    apply hm ha
  · rw [e]
    rfl
  · rw [e]
    rfl
  · rw [e]
    rfl

/-! ### Events and pings -/

variable (generation : Nat)

/-- The stream after the pending markets were announced on a session that opened. -/
def flushed : Stream :=
  { s.enter .connected with pending := .empty }.sendAll
    (s.pending.ids.map (subscribeMessage env))

theorem toLink_flushed :
  (s.flushed env).toLink =
    { s.toLink with state := .connected, pending := .empty }.post
      (s.pending.ids.map (subscribeMessage env))
  := by
  rw [flushed, toLink_sendAll]
  rfl

theorem now_flushed :
  (s.flushed env).now = s.now
  := by
  have h : (s.flushed env).toDesk.books = s.toDesk.books := by
    apply books_sendAll
  apply congrArg Desk.now h

/-- An opening counts while the link waits for the session of its generation. -/
theorem opened_cases :
  (s.generation = generation ∧ s.state = .connecting ∧
      (s.opened env generation).toLink =
        s.toLink.connect env (Clock.firstTick? s.now env.settings.stream.keepalive))
    ∨ (¬ (s.generation = generation ∧ s.state = .connecting) ∧
      (s.opened env generation).toLink = s.toLink)
  := by
  by_cases h : s.generation = generation ∧ s.state = .connecting
  · left
    use h.1, h.2
    have e : (s.opened env generation).toLink =
        { (s.flushed env).toLink with
          pinger := some ⟨generation,
            Clock.firstTick? (s.flushed env).now env.settings.stream.keepalive⟩ }
      := congrArg toLink (if_pos h)
    rw [e, toLink_flushed, now_flushed, ← h.1]
    rfl
  · right
    use h
    rw [opened, if_neg h]
    rfl

/-- The end of a session ends its dispatch, and resets the link if it is the session that is
held. -/
theorem ended_cases (reason : String) :
  (s.closed generation reason).toLink.silence generation = s.toLink.silence generation
    ∨ (s.isCurrent generation ∧
      (s.closed generation reason).toLink.silence generation = s.toLink.reset.silence generation)
  := by
  rw [closed]
  split
  · rename_i h
    right
    use h
    rfl
  · left
    rfl

/-- A frame leaves the link alone, unless it ends the dispatch of its session. -/
theorem received_cases (text : String) :
  (s.received env generation text).toLink = s.toLink
    ∨ (s.received env generation text).toLink = s.toLink.silence generation
  := by
  rw [received]
  split
  · split
    · left
      rfl
    · right
      rfl
  · left
    rfl

/-- The stream waits for the session of a generation to open, and will hear of it. -/
def awaits : Prop :=
  s.transport.hears generation ∧ s.generation = generation ∧ s.state = .connecting

instance : Decidable (s.awaits generation) :=
  inferInstanceAs (Decidable (_ ∧ _ ∧ _))

/-- An opening that is awaited opens the link. -/
theorem deliver_opened (h : s.awaits generation) :
  (s.deliver env generation .opened).toLink =
    s.toLink.connect env (Clock.firstTick? s.now env.settings.stream.keepalive)
  := by
  rw [deliver, if_pos h.1]
  obtain ⟨-, -, e⟩ | ⟨hn, -⟩ := opened_cases env s generation
  · apply e
  · apply absurd h.2 hn

/-- An event opens the link if it is an opening that is awaited.  Otherwise it ends the link, or
ends the dispatch of its session, or is without effect. -/
theorem deliver_cases (e : SessionEvent) :
  (e = .opened ∧ s.awaits generation ∧
      (s.deliver env generation e).toLink =
        s.toLink.connect env (Clock.firstTick? s.now env.settings.stream.keepalive))
    ∨ (¬ (e = .opened ∧ s.awaits generation) ∧
      ((s.deliver env generation e).toLink = s.toLink
        ∨ (s.deliver env generation e).toLink = s.toLink.silence generation
        ∨ (s.isCurrent generation ∧
          (s.deliver env generation e).toLink = s.toLink.reset.silence generation)))
  := by
  by_cases ha : e = .opened ∧ s.awaits generation
  · left
    obtain ⟨rfl, ha⟩ := ha
    exact ⟨rfl, ha, deliver_opened env s generation ha⟩
  · right
    use ha
    by_cases hh : s.transport.hears generation
    · rw [deliver, if_pos hh]
      cases e with
      | opened =>
        obtain ⟨hg, hs, -⟩ | ⟨-, h⟩ := opened_cases env s generation
        · apply absurd ⟨rfl, hh, hg, hs⟩ ha
        · exact Or.inl h
      | message text =>
        obtain h | h := received_cases env s generation text
        · left
          apply h
        · right
          left
          apply h
      | closed reason =>
        right
        apply ended_cases
      | errored reason =>
        right
        apply ended_cases
    · left
      rw [deliver, if_neg hh]

/-- The ping of a timer, if it is the timer of the open session. -/
def pings : List Outbound :=
  if s.generation = generation ∧ s.state = .connected then [.ping] else []

/-- A timer that acts pings its session and is set to its next tick. -/
theorem toLink_pingTick (due : Nat) :
  (s.pingTick env generation due).toLink =
    (s.toLink.post (s.pings generation)).rewind generation
      (some (Clock.nextTick due s.now (max env.settings.stream.keepalive 1)))
  := by
  have h : (s.ping env generation).toLink = s.toLink.post (s.pings generation) := by
    rw [ping, pings]
    split
    · dsimp only
      split
      · apply toLink_send
      · apply toLink_send
    · simp [Link.post]
  rw [← h]
  rfl

end Stream

end QuoteFeed
