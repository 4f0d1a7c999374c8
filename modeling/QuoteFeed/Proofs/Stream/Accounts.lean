import QuoteFeed.Proofs.Counts
import QuoteFeed.Proofs.Stream.Receipts
import QuoteFeed.Proofs.Stream.Sync

/-!
# The accounts of a stream

The counters of messages and of pings balance with the messages that the sessions took
(`Stream.Balanced`).  Every operation of a stream keeps the balance and leaves the counters of
frames alone (`KeepsAccounts`), except that a frame of the session that is held is counted
(`counts_received`).
-/

namespace QuoteFeed

/-- The counters of frames. -/
def Counts.inbound (c : Counts) : EventCounts × DropCounts × Nat × Nat :=
  (c.received, c.dropped, c.ackMetric, c.acks)

/-- The counters after a message of a type was sent. -/
def Counts.post (c : Counts) (k : MessageType) : Counts :=
  { c with
    sent := c.sent.bump k
    pingMetric := if k = .ping then c.pingMetric + 1 else c.pingMetric }

/-- The number of messages of a type that the sessions took. -/
def Transport.taken (t : Transport) (k : MessageType) : Nat :=
  t.sent.countP fun m => m.message.messageType = k

theorem Transport.taken_record (t : Transport) (n : Nat) (m : Outbound) (k : MessageType) :
  (t.record n m).taken k = t.taken k + if k = m.messageType then 1 else 0
  := by
  rw [taken, record, List.countP_append, List.countP_singleton, taken]
  by_cases h : k = m.messageType
  · simp [h]
  · have h' : ¬ m.messageType = k := fun e => h e.symm
    simp [h, h']

namespace Stream

/-- The counters of messages and of pings balance with the messages that the sessions took. -/
structure Balanced (s : Stream) : Prop where
  sent_eq : ∀ k, s.counts.sent.get k = s.transport.taken k
  pingMetric_eq : s.counts.pingMetric = s.transport.taken .ping
  pings_eq : s.counts.pings = s.transport.taken .ping

theorem Balanced.of_eq {s s' : Stream} (h : s.Balanced) (hs : s'.counts.sent = s.counts.sent)
    (hm : s'.counts.pingMetric = s.counts.pingMetric) (hp : s'.counts.pings = s.counts.pings)
    (ht : s'.transport.sent = s.transport.sent) :
  s'.Balanced
  where
  sent_eq k := by rw [hs, h.sent_eq, Transport.taken, Transport.taken, ht]
  pingMetric_eq := by rw [hm, h.pingMetric_eq, Transport.taken, Transport.taken, ht]
  pings_eq := by rw [hp, h.pings_eq, Transport.taken, Transport.taken, ht]

/-- The balance is kept when a message that is taken is counted. -/
theorem Balanced.post {s s' : Stream} (h : s.Balanced) {k : MessageType}
    (hs : s'.counts.sent = s.counts.sent.bump k)
    (hm : s'.counts.pingMetric =
      if k = .ping then s.counts.pingMetric + 1 else s.counts.pingMetric)
    (hp : s'.counts.pings = if k = .ping then s.counts.pings + 1 else s.counts.pings)
    (ht : ∀ j, s'.transport.taken j = s.transport.taken j + if j = k then 1 else 0) :
  s'.Balanced
  where
  sent_eq j := by rw [hs, ht, MessageCounts.get_bump, h.sent_eq]
  pingMetric_eq := by
    rw [hm, ht, ← h.pingMetric_eq]
    cases k <;> rfl
  pings_eq := by
    rw [hp, ht, ← h.pings_eq]
    cases k <;> rfl

/-- The counters of frames stay as they are, and the others stay in balance. -/
structure KeepsAccounts (s s' : Stream) : Prop where
  inbound_eq : s'.counts.inbound = s.counts.inbound
  balanced : s.Balanced → s'.Balanced

namespace KeepsAccounts

variable {s s' s'' : Stream}

theorem of_eq (hc : s'.counts = s.counts) (ht : s'.transport.sent = s.transport.sent) :
  s.KeepsAccounts s'
  where
  inbound_eq := by rw [hc]
  balanced h := by
    apply h.of_eq _ _ _ ht
    · rw [hc]
    · rw [hc]
    · rw [hc]

theorem refl (s : Stream) :
  s.KeepsAccounts s
  := of_eq rfl rfl

theorem trans (h : s.KeepsAccounts s') (h' : s'.KeepsAccounts s'') :
  s.KeepsAccounts s''
  where
  inbound_eq := h'.inbound_eq.trans h.inbound_eq
  balanced hb := h'.balanced (h.balanced hb)

/-- What is noted afterwards does not matter. -/
theorem note (h : s.KeepsAccounts s') (n : Note) :
  s.KeepsAccounts (s'.note n)
  := h.trans (of_eq rfl rfl)

end KeepsAccounts

variable (env : Environment) (s : Stream)

/-! ### Sending -/

/-- A message is counted when it is taken. -/
theorem send_accounts (m : Outbound) :
  if s.canSend then
    (s.send m).counts = s.counts.post m.messageType ∧
      ∀ k, (s.send m).transport.taken k =
        s.transport.taken k + if k = m.messageType then 1 else 0
  else
    (s.send m).counts = s.counts ∧ (s.send m).transport = s.transport
  := by
  rw [canSend, send]
  cases s.handle with
  | none => exact ⟨rfl, rfl⟩
  | some n =>
    cases h : s.transport.accepts n with
    | true =>
      simp only [Option.map_some, Option.getD_some, h, if_true]
      exact ⟨rfl, Transport.taken_record _ n m⟩
    | false =>
      simp only [Option.map_some, Option.getD_some, h, Bool.false_eq_true, if_false]
      exact ⟨rfl, rfl⟩

/-- A message other than a ping keeps the balance. -/
theorem keepsAccounts_send {m : Outbound} (hm : m.messageType ≠ .ping) :
  s.KeepsAccounts (s.send m)
  := by
  have h := send_accounts s m
  split at h
  · obtain ⟨hc, ht⟩ := h
    refine ⟨by rw [hc]; rfl, fun h => h.post ?_ ?_ ?_ ht⟩
    · rw [hc]
      rfl
    · rw [hc]
      rfl
    · rw [hc, if_neg hm]
      rfl
  · apply KeepsAccounts.of_eq h.1
    rw [h.2]

theorem keepsAccounts_sendAll {m : MarketId → Outbound} (hm : ∀ id, (m id).messageType ≠ .ping)
    (ids : List MarketId) :
  s.KeepsAccounts (s.sendAll (ids.map m))
  := by
  induction ids generalizing s with
  | nil => apply KeepsAccounts.refl
  | cons id ids ih =>
    apply (keepsAccounts_send s (hm id)).trans
    apply ih

/-- The keepalive counts a ping. -/
theorem counts_keepalive (t : Option Time.Timestamp) :
  { s with
    keepalive := { s.keepalive with pings := s.keepalive.pings + 1, lastPing := t } }.counts =
      { s.counts with pings := s.counts.pings + 1 }
  := rfl

/-- A ping is counted by the keepalive as well when it is taken. -/
theorem keepsAccounts_ping (generation : Nat) :
  s.KeepsAccounts (s.ping env generation)
  := by
  have h := send_accounts s .ping
  rw [ping]
  split
  · dsimp only
    split
    · rename_i hs
      rw [if_pos hs] at h
      obtain ⟨hc, ht⟩ := h
      generalize s.send .ping = s' at hc ht
      have hk := (counts_keepalive s' (env.wall s'.now)).trans
        (congrArg (fun c : Counts => { c with pings := c.pings + 1 }) hc)
      refine ⟨?_, fun h => h.post ?_ ?_ ?_ ht⟩
      · apply (congrArg Counts.inbound hk).trans
        rfl
      · exact congrArg Counts.sent hk
      · exact congrArg Counts.pingMetric hk
      · exact congrArg Counts.pings hk
    · rename_i hs
      rw [if_neg hs] at h
      apply KeepsAccounts.of_eq h.1
      rw [h.2]
  · apply KeepsAccounts.refl

/-! ### Sessions -/

theorem keepsAccounts_requestSession :
  s.KeepsAccounts (s.requestSession env)
  := by
  rw [requestSession]
  split
  · exact KeepsAccounts.of_eq rfl rfl
  · apply KeepsAccounts.refl

theorem keepsAccounts_start :
  s.KeepsAccounts (s.start env)
  := by
  have h : s.KeepsAccounts { s with stopped := false } := KeepsAccounts.of_eq rfl rfl
  apply h.trans
  apply keepsAccounts_requestSession

theorem keepsAccounts_closeHandle :
  s.KeepsAccounts s.closeHandle
  := by
  rw [closeHandle]
  split
  · apply KeepsAccounts.refl
  · exact KeepsAccounts.of_eq rfl (Transport.sent_modify _ _ _)

theorem keepsAccounts_withdraw :
  s.KeepsAccounts (s.withdraw env)
  := by
  rw [withdraw]
  split
  · apply keepsAccounts_sendAll
    rintro id ⟨⟩
  · apply KeepsAccounts.refl

theorem keepsAccounts_reset :
  s.KeepsAccounts s.reset
  := KeepsAccounts.of_eq rfl rfl

theorem keepsAccounts_setTimer (pinger : Option Pinger) :
  s.KeepsAccounts { s with pinger }
  := KeepsAccounts.of_eq rfl rfl

theorem keepsAccounts_stop :
  s.KeepsAccounts (s.stop env)
  := by
  have h : s.KeepsAccounts { s with stopped := true } := KeepsAccounts.of_eq rfl rfl
  rw [stop]
  dsimp only
  split
  · apply h
  · have hc := (h.trans (keepsAccounts_withdraw env _)).trans (keepsAccounts_closeHandle _)
    apply (hc.note _).trans
    apply keepsAccounts_reset

/-! ### Interest in markets -/

theorem keepsAccounts_subscribe (id : MarketId) :
  s.KeepsAccounts (s.subscribe env id)
  := by
  have h : s.KeepsAccounts { s with subscribed := s.subscribed.insert id } :=
    KeepsAccounts.of_eq rfl rfl
  rw [subscribe]
  split
  · apply KeepsAccounts.refl
  · dsimp only
    split
    · apply h.trans
      apply keepsAccounts_send
      rintro ⟨⟩
    · split
      · exact KeepsAccounts.of_eq rfl rfl
      · apply KeepsAccounts.trans _ (keepsAccounts_requestSession env _)
        exact KeepsAccounts.of_eq rfl rfl

theorem keepsAccounts_unsubscribe (id : MarketId) :
  s.KeepsAccounts (s.unsubscribe env id)
  := by
  have h : s.KeepsAccounts { s with subscribed := s.subscribed.erase id } :=
    KeepsAccounts.of_eq rfl rfl
  rw [unsubscribe]
  split
  · dsimp only
    split
    · exact KeepsAccounts.of_eq rfl rfl
    · split
      · apply h.trans
        apply keepsAccounts_send
        rintro ⟨⟩
      · exact KeepsAccounts.of_eq rfl rfl
  · apply KeepsAccounts.refl

theorem keepsAccounts_calls (cs : List Call) :
  s.KeepsAccounts (cs.foldl (call env) s)
  := by
  induction cs generalizing s with
  | nil => apply KeepsAccounts.refl
  | cons c cs ih =>
    apply KeepsAccounts.trans _ (ih _)
    cases c with
    | subscribe id => apply keepsAccounts_subscribe
    | unsubscribe id => apply keepsAccounts_unsubscribe

theorem keepsAccounts_setSubscriptions (n : Nat) :
  s.KeepsAccounts (s.measure (·.setSubscriptions n))
  := KeepsAccounts.of_eq rfl rfl

theorem keepsAccounts_sync (wanted : IdSet) :
  s.KeepsAccounts (s.sync env wanted).2
  := by
  rw [sync]
  dsimp only
  split
  · apply KeepsAccounts.refl
  · apply KeepsAccounts.note
    apply (keepsAccounts_calls env s _).trans
    apply keepsAccounts_setSubscriptions

/-! ### Events -/

theorem keepsAccounts_opened (generation : Nat) :
  s.KeepsAccounts (s.opened env generation)
  := by
  rw [opened]
  split
  · have h : s.KeepsAccounts { s.enter .connected with pending := .empty } :=
      KeepsAccounts.of_eq rfl rfl
    have hs := h.trans
      (keepsAccounts_sendAll _ (m := subscribeMessage env) (by rintro id ⟨⟩) s.pending.ids)
    apply KeepsAccounts.note
    apply hs.trans
    apply keepsAccounts_setTimer
  · exact KeepsAccounts.of_eq rfl rfl

theorem keepsAccounts_ended (generation : Nat) (reason : String) :
  s.KeepsAccounts
    (((s.closed generation reason).endDispatch generation).note (.dispatchEnded generation))
  := by
  have h : s.KeepsAccounts (s.closed generation reason) := by
    rw [closed]
    split
    · exact KeepsAccounts.of_eq rfl rfl
    · exact KeepsAccounts.of_eq rfl rfl
  apply h.trans
  exact KeepsAccounts.of_eq rfl (Transport.sent_modify _ _ _)

theorem keepsAccounts_pingTick (generation due : Nat) :
  s.KeepsAccounts (s.pingTick env generation due)
  := by
  apply (keepsAccounts_ping env s generation).trans
  apply keepsAccounts_setTimer

/-! ### Frames -/

/-- The frame that is processed by an act: that of the session that is held. -/
def frame? (s : Stream) : Act → Option Frame
  | .event n (.message text) =>
    if s.transport.hears n ∧ s.isCurrent n then some ⟨s.toDesk, text⟩ else none
  | _ => none

variable {env s}

/-- An act by which no frame is processed keeps the accounts. -/
theorem keepsAccounts_act {a : Act} (h : s.frame? a = none) :
  s.KeepsAccounts (s.act env a)
  := by
  cases a with
  | start => apply keepsAccounts_start
  | stop => apply keepsAccounts_stop
  | subscribe id => apply keepsAccounts_subscribe
  | unsubscribe id => apply keepsAccounts_unsubscribe
  | event n e =>
    rw [act, deliver]
    split
    · rename_i hh
      cases e with
      | opened => apply keepsAccounts_opened
      | message text =>
        have hn : ¬ s.isCurrent n := by
          intro hn
          rw [frame?, if_pos ⟨hh, hn⟩] at h
          contradiction
        rw [handleEvent, received, if_neg hn]
        apply KeepsAccounts.refl
      | closed reason => apply keepsAccounts_ended
      | errored reason => apply keepsAccounts_ended
    · apply KeepsAccounts.refl
  | ping generation due => apply keepsAccounts_pingTick
  | lose n => exact KeepsAccounts.of_eq rfl (Transport.sent_modify _ _ _)
  | outage broken => exact KeepsAccounts.of_eq rfl rfl

theorem frame?_eq_some {a : Act} {f : Frame} (h : s.frame? a = some f) :
  ∃ n, a = .event n (.message f.text) ∧ s.transport.hears n ∧ s.isCurrent n ∧ f.desk = s.toDesk
  := by
  cases a with
  | event n e =>
    cases e with
    | message text =>
      rw [frame?] at h
      split at h
      · rename_i hn
        obtain rfl := Option.some.inj h
        use n, rfl, hn.1, hn.2
      · contradiction
    | _ => contradiction
  | _ => contradiction

/-- A frame that is processed is counted, and dropped for its reason if it has one, unless the
lifetime of its quote leads beyond the clock. -/
theorem counts_act {a : Act} {f : Frame} (h : s.frame? a = some f)
    (hf : ∀ r, s.receipt? env a = some r → r.Fits env) :
  (f.outcome? env).map (·.reason?) = some f.reason? ∧
    (s.act env a).counts = s.counts.take f.kind f.reason? ∧
      (s.act env a).transport = s.transport
  := by
  obtain ⟨n, rfl, hh, hn, hd⟩ := frame?_eq_some h
  obtain ⟨⟨outcome, d⟩, hp⟩ := Option.isSome_iff_exists.1 (isSome_process? hn hf)
  obtain ⟨hr, hc⟩ := Desk.counts_process? hp
  rw [Frame.outcome?, Frame.reason?, hd, hp, act, deliver, if_pos hh, handleEvent, received,
    if_pos hn, hp]
  rw [hr] at hc
  exact ⟨congrArg some hr, hc, rfl⟩

/-- A quote arrives if a frame is processed that gives it. -/
theorem receipt?_eq_bind (h : s.toLink.Attentive) (a : Act) :
  s.receipt? env a = (s.frame? a).bind fun f => (f.quote? env).map (⟨·, s.now⟩)
  := by
  cases a with
  | event n e =>
    cases e with
    | message text =>
      rw [receipt?, frame?]
      by_cases hn : s.isCurrent n
      · obtain ⟨rfl, hs⟩ := isCurrent_iff.1 hn
        rw [if_pos hn, if_pos ⟨h hs, hn⟩]
        rfl
      · rw [if_neg hn, if_neg fun h => hn h.2]
        rfl
    | _ => rfl
  | _ => rfl

end Stream

end QuoteFeed
