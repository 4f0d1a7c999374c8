import QuoteFeed.Proofs.Stream.Session

/-!
# Streams that nobody can tell apart

`Stream.essence` forgets what a stream reported and which sessions it hears.  Apart from the
delivery of an event no operation reads either of the two: it respects the essence
(`Stream.Respects`).  Two streams are alike if they have the same essence and agree on whether the
session that is held is heard, and every action keeps streams alike (`alike_step`).
-/

namespace QuoteFeed

/-! ### Nobody is heard -/

/-- The session when its events are not heard. -/
def Session.deafened (s : Session) : Session := { s with heard := false }

/-- The transport when no session is heard. -/
def Transport.deafened (t : Transport) : Transport :=
  { t with sessions := t.sessions.map Session.deafened }

namespace Transport

variable (t : Transport) (n : Nat)

@[simp]
theorem deafened_deafened :
  t.deafened.deafened = t.deafened
  := by
  simp [deafened, Session.deafened]

@[simp]
theorem connects_deafened :
  t.deafened.connects = t.connects
  := by
  simp [connects, deafened]

@[simp]
theorem accepts_deafened :
  t.deafened.accepts n = t.accepts n
  := by
  have h : t.deafened.session? n = (t.session? n).map Session.deafened := by
    rw [session?, session?]
    split
    · rfl
    · simp [deafened]
  rw [accepts, accepts, isOpen, isOpen, h, Option.map_map]
  rfl

theorem deafened_connect :
  t.deafened.connect.deafened = t.connect.deafened
  := by
  simp [connect, deafened, Session.deafened]

/-- Changing a session that is not heard amounts to another change, which nobody hears. -/
theorem deafened_modify {f g : Session → Session} (h : ∀ s, (f s).deafened = g s.deafened) :
  (t.modify n f).deafened = t.deafened.modify n g
  := by
  rw [modify, modify]
  split
  · rfl
  · rw [deafened, deafened, mk.injEq]
    refine ⟨?_, rfl, rfl⟩
    apply List.ext_getElem?
    intro k
    rw [List.getElem?_map, List.getElem?_modify, List.getElem?_modify, List.getElem?_map]
    cases t.sessions[k]? with
    | none => rfl
    | some s =>
      by_cases e : n - 1 = k
      · simp [e, h]
      · simp [e]

theorem deafened_close :
  (t.close n).deafened = t.deafened.close n
  := t.deafened_modify n fun _ => rfl

theorem deafened_lose :
  (t.lose n).deafened = t.deafened.lose n
  := t.deafened_modify n fun _ => rfl

/-- When nobody is heard, silencing a session changes nothing. -/
@[simp]
theorem deafened_ignore :
  (t.ignore n).deafened = t.deafened
  := by
  have h (s : Session) : { s with heard := false }.deafened = id s.deafened := rfl
  rw [ignore, t.deafened_modify n h]
  simp [modify]

end Transport

/-! ### The essence -/

namespace Stream

/-- The stream without its report, when no session is heard. -/
def essence (s : Stream) : Stream :=
  { s with report := .empty, transport := s.transport.deafened }

/-- The outcome of the operation has an essence that depends on that of the stream alone. -/
def Respects (f : Stream → Stream) : Prop :=
  ∀ s, (f s.essence).essence = (f s).essence

variable {env : Environment} {s s' : Stream} {f g : Stream → Stream}

@[simp]
theorem essence_essence (s : Stream) :
  s.essence.essence = s.essence
  := by
  simp [essence]

@[simp]
theorem essence_note (s : Stream) (n : Note) :
  (s.note n).essence = s.essence
  := rfl

@[simp]
theorem essence_measure (s : Stream) (f : Metrics → Metrics) :
  (s.measure f).essence = s.essence
  := rfl

@[simp]
theorem essence_endDispatch (s : Stream) (n : Nat) :
  (s.endDispatch n).essence = s.essence
  := by
  simp [essence, endDispatch]

theorem state_eq_of_essence (e : s.essence = s'.essence) :
  s.state = s'.state
  := by
  have h := congrArg (fun t : Stream => t.state) e
  exact h

theorem generation_eq_of_essence (e : s.essence = s'.essence) :
  s.generation = s'.generation
  := by
  have h := congrArg (fun t : Stream => t.generation) e
  exact h

theorem books_eq_of_essence (e : s.essence = s'.essence) :
  s.toDesk.books = s'.toDesk.books
  := by
  have h := congrArg (fun t : Stream => t.toDesk) e
  exact h

/-- An operation that respects the essence gives the same essence for the same essence. -/
theorem Respects.congr (h : Respects f) (e : s.essence = s'.essence) :
  (f s).essence = (f s').essence
  := by
  rw [← h s, e, h s']

theorem Respects.comp (hg : Respects g) (hf : Respects f) :
  Respects fun s => g (f s)
  := fun s => hg.congr (hf s)

/-- A choice between operations respects the essence if the essence decides it. -/
theorem Respects.ite {p : Stream → Prop} [∀ s, Decidable (p s)] (hp : ∀ s, p s.essence ↔ p s)
    (hf : Respects f) (hg : Respects g) :
  Respects fun s => if p s then f s else g s
  := by
  intro s
  dsimp only
  by_cases h : p s
  · rw [if_pos h, if_pos ((hp s).2 h)]
    apply hf
  · rw [if_neg h, if_neg fun h' => h ((hp s).1 h')]
    apply hg

/-- An operation that does the same to the essence respects it. -/
theorem respects_of_commutes (h : ∀ s, f s.essence = (f s).essence) :
  Respects f
  := by
  intro s
  rw [h, essence_essence]

/-- An operation without an effect on the essence respects it. -/
theorem respects_of_eq (h : ∀ s, (f s).essence = s.essence) :
  Respects f
  := by
  intro s
  rw [h, h, essence_essence]

theorem respects_id :
  Respects fun s => s
  := respects_of_commutes fun _ => rfl

/-! ### Calls and timers -/

theorem respects_send (m : Outbound) :
  Respects (·.send m)
  := by
  intro s
  have ha (n : Nat) : s.essence.transport.accepts n = s.transport.accepts n :=
    s.transport.accepts_deafened n
  change (s.essence.send m).essence = (s.send m).essence
  rw [send, send, show s.essence.handle = s.handle from rfl]
  cases s.handle with
  | none => apply essence_essence
  | some n =>
    dsimp only
    rw [ha]
    split
    · simp [essence, measure, Transport.record, Transport.deafened, Session.deafened]
    · simp

theorem respects_sendAll (ms : List Outbound) :
  Respects (·.sendAll ms)
  := by
  induction ms with
  | nil => exact respects_id
  | cons m ms ih => exact ih.comp (respects_send m)

theorem respects_requestSession (env : Environment) :
  Respects (requestSession env)
  := by
  apply Respects.ite (p := fun s => s.state = .disconnected) fun _ => Iff.rfl
  · intro s
    simp [essence, enter, measure, note, Transport.deafened_connect]
  · apply respects_id

theorem respects_start (env : Environment) :
  Respects (start env)
  := (respects_requestSession env).comp (respects_of_commutes fun _ => rfl)

theorem respects_withdraw (env : Environment) :
  Respects (withdraw env)
  := by
  apply Respects.ite (p := fun s => s.state = .connected) fun _ => Iff.rfl
  · intro s
    apply respects_sendAll
  · apply respects_id

theorem respects_closeHandle :
  Respects closeHandle
  := by
  intro s
  rw [closeHandle, closeHandle, show s.essence.handle = s.handle from rfl]
  cases s.handle with
  | none => apply essence_essence
  | some n => simp [essence, Transport.deafened_close]

theorem respects_reset :
  Respects reset
  := by
  intro s
  simp [essence, reset, enter, measure]

theorem respects_stop (env : Environment) :
  Respects (stop env)
  := by
  have mark : Respects fun s => { s with stopped := true } := respects_of_commutes fun _ => rfl
  have hangUp : Respects fun s => (s.withdraw env).closeHandle :=
    respects_closeHandle.comp (respects_withdraw env)
  have forget : Respects fun s => (s.note (.stopped s.generation)).reset :=
    respects_reset.comp (respects_of_eq fun _ => rfl)
  have finish := Respects.ite (p := fun s => s.state = .disconnected ∧ s.handle.isNone)
    (fun _ => Iff.rfl) respects_id (forget.comp hangUp)
  exact finish.comp mark

theorem respects_subscribe (env : Environment) (id : MarketId) :
  Respects (subscribe env · id)
  := by
  have want : Respects fun s => { s with subscribed := s.subscribed.insert id } :=
    respects_of_commutes fun _ => rfl
  have defer : Respects fun s => { s with pending := s.pending.insert id } :=
    respects_of_commutes fun _ => rfl
  have hold : Respects fun s => s.note (.subscribeHeld id) := respects_of_eq fun _ => rfl
  have ask : Respects fun s => (s.note (.subscribeDeferred id)).requestSession env :=
    (respects_requestSession env).comp (respects_of_eq fun _ => rfl)
  have wait := Respects.ite (p := fun s => s.stopped = true) (fun _ => Iff.rfl) hold ask
  have tell := Respects.ite (p := fun s => s.state = .connected) (fun _ => Iff.rfl)
    (respects_send (subscribeMessage env id)) (wait.comp defer)
  exact Respects.ite (fun _ => Iff.rfl) respects_id (tell.comp want)

theorem respects_unsubscribe (env : Environment) (id : MarketId) :
  Respects (unsubscribe env · id)
  := by
  have drop : Respects fun s => { s with subscribed := s.subscribed.erase id } :=
    respects_of_commutes fun _ => rfl
  have undefer : Respects fun s => { s with pending := s.pending.erase id } :=
    respects_of_commutes fun _ => rfl
  have tell := Respects.ite (p := fun s => s.state = .connected) (fun _ => Iff.rfl)
    (respects_send (unsubscribeMessage env id)) respects_id
  have choose := Respects.ite (p := fun s => id ∈ s.pending) (fun _ => Iff.rfl) undefer tell
  exact Respects.ite (fun _ => Iff.rfl) (choose.comp drop) respects_id

theorem respects_ping (env : Environment) (generation : Nat) :
  Respects (ping env · generation)
  := by
  have count : Respects fun s => { s with toDesk := s.toDesk.countPing env } :=
    respects_of_commutes fun _ => rfl
  have send : Respects fun s =>
      if s.canSend then { s.send .ping with toDesk := (s.send .ping).toDesk.countPing env }
      else s.send .ping := by
    apply Respects.ite
    · intro s
      have h : s.essence.transport.accepts = s.transport.accepts := by
        funext n
        apply s.transport.accepts_deafened
      rw [canSend, canSend, h]
      rfl
    · exact count.comp (respects_send .ping)
    · apply respects_send
  exact Respects.ite (fun _ => Iff.rfl) send respects_id

theorem respects_pingTick (env : Environment) (generation due : Nat) :
  Respects (pingTick env · generation due)
  := by
  intro s
  have set (next : Nat) : Respects (·.setPinger generation (some next)) :=
    respects_of_commutes fun _ => rfl
  exact (set _).congr (respects_ping env generation s)

/-! ### Events of a session -/

theorem respects_opened (env : Environment) (generation : Nat) :
  Respects (opened env · generation)
  := by
  have enter : Respects fun s => { s.enter .connected with pending := .empty } := by
    intro s
    simp [essence, enter, measure]
  have flush : Respects (flushed env) := fun s => (respects_sendAll _).congr (enter s)
  have arm : Respects fun s => { s with pinger := some ⟨generation,
      Clock.firstTick? s.now env.settings.stream.keepalive⟩ } := respects_of_commutes fun _ => rfl
  have tell : Respects fun s => s.note (.connected generation s.subscribed.size) :=
    respects_of_eq fun _ => rfl
  have stale : Respects fun s => s.note (.staleOpen generation) := respects_of_eq fun _ => rfl
  exact Respects.ite (fun _ => Iff.rfl) (tell.comp (arm.comp flush)) stale

theorem respects_closed (generation : Nat) (reason : String) :
  Respects (closed · generation reason)
  := by
  have forget : Respects fun s => (s.note (.closed generation reason s.subscribed.size)).reset :=
    respects_reset.comp (respects_of_eq fun _ => rfl)
  have stale : Respects fun s => s.note (.staleClose generation reason) :=
    respects_of_eq fun _ => rfl
  exact Respects.ite (fun _ => Iff.rfl) forget stale

/-- The essence of a stream whose desk is replaced depends on the books of the new desk. -/
theorem essence_withDesk (s : Stream) {d d' : Desk} (h : d.books = d'.books) :
  { s.essence with toDesk := d }.essence = { s with toDesk := d' }.essence
  := by
  change Stream.mk d.books { s.toLink with transport := s.transport.deafened.deafened } =
    ⟨d'.books, { s.toLink with transport := s.transport.deafened }⟩
  rw [h, Transport.deafened_deafened]

theorem respects_received (env : Environment) (generation : Nat) (text : String) :
  Respects (received env · generation text)
  := by
  apply Respects.ite (p := fun s => s.isCurrent generation) fun _ => Iff.rfl
  · intro s
    have h : (s.essence.toDesk.process? env text).map Desk.aftermath =
        (s.toDesk.process? env text).map Desk.aftermath := s.toDesk.aftermath_process? env text
    dsimp only
    cases h₁ : s.essence.toDesk.process? env text with
    | none =>
      rw [h₁, Option.map_none, eq_comm, Option.map_eq_none_iff] at h
      rw [h]
      simp
    | some r =>
      rw [h₁, Option.map_some, eq_comm, Option.map_eq_some_iff] at h
      obtain ⟨r', h₂, e⟩ := h
      rw [h₂]
      exact essence_withDesk s (congrArg Prod.snd e.symm)
  · apply respects_id

/-- Except for whether it is heard at all, the outcome of an event depends on the essence alone. -/
theorem respects_handleEvent (env : Environment) (generation : Nat) (e : SessionEvent) :
  Respects (handleEvent env · generation e)
  := by
  have ending (reason : String) : Respects fun s =>
      ((s.closed generation reason).endDispatch generation).note (.dispatchEnded generation) :=
    Respects.comp (g := fun s => (s.endDispatch generation).note (.dispatchEnded generation))
      (respects_of_eq fun s => s.essence_endDispatch generation) (respects_closed generation reason)
  cases e with
  | opened => apply respects_opened
  | message text => apply respects_received
  | closed reason => apply ending
  | errored reason => apply ending

/-! ### Alike streams -/

/-- The streams have the same essence, and agree on whether the session that is held is heard. -/
structure Alike (s s' : Stream) : Prop where
  essence_eq : s.essence = s'.essence
  heard_eq : s.state ≠ .disconnected →
    s.transport.hears s.generation = s'.transport.hears s.generation

theorem Alike.refl (s : Stream) :
  s.Alike s
  := ⟨rfl, fun _ => rfl⟩

theorem Alike.state_eq (h : s.Alike s') :
  s.state = s'.state
  := state_eq_of_essence h.essence_eq

theorem Alike.generation_eq (h : s.Alike s') :
  s.generation = s'.generation
  := generation_eq_of_essence h.essence_eq

theorem Alike.stopped_eq (h : s.Alike s') :
  s.stopped = s'.stopped
  := by
  have e := congrArg (fun t : Stream => t.stopped) h.essence_eq
  exact e

theorem Alike.connects_eq (h : s.Alike s') :
  s.transport.connects = s'.transport.connects
  := by
  have e := congrArg (fun t : Stream => t.transport.connects) h.essence_eq
  rwa [essence, essence, Transport.connects_deafened, Transport.connects_deafened] at e

theorem Alike.sent_eq (h : s.Alike s') :
  s.transport.sent = s'.transport.sent
  := by
  have e := congrArg (fun t : Stream => t.transport.sent) h.essence_eq
  exact e

theorem Alike.books_eq (h : s.Alike s') :
  s.toDesk.books = s'.toDesk.books
  := books_eq_of_essence h.essence_eq

theorem Alike.isCurrent_eq (h : s.Alike s') (n : Nat) :
  s.isCurrent n = s'.isCurrent n
  := by
  rw [isCurrent, isCurrent, h.state_eq, h.generation_eq]

theorem Alike.symm (h : s.Alike s') :
  s'.Alike s
  where
  essence_eq := h.essence_eq.symm
  heard_eq hs := by
    rw [← h.state_eq] at hs
    rw [← h.generation_eq, h.heard_eq hs]

theorem Alike.trans {t : Stream} (h : s.Alike s') (k : s'.Alike t) :
  s.Alike t
  where
  essence_eq := h.essence_eq.trans k.essence_eq
  heard_eq hs := by
    rw [h.heard_eq hs, h.generation_eq]
    apply k.heard_eq
    rw [← h.state_eq]
    apply hs

/-- An act that is no event of a session respects the essence. -/
theorem respects_act (env : Environment) {a : Act} (ha : ∀ n e, a ≠ .event n e) :
  Respects (act env · a)
  := by
  cases a with
  | start => apply respects_start
  | stop => apply respects_stop
  | subscribe id => apply respects_subscribe
  | unsubscribe id => apply respects_unsubscribe
  | event n e => apply absurd rfl (ha n e)
  | ping generation due => apply respects_pingTick
  | lose n =>
    intro s
    simp [essence, act, Transport.deafened_lose]
  | outage broken =>
    intro s
    simp [essence, act, Transport.deafened, Session.deafened]

/-- After an act that is no event of a session, the session that is held is heard if it was heard
before or is new. -/
theorem heard_act (hc : s.toLink.Coherent) {a : Act} (ha : ∀ n e, a ≠ .event n e)
    (hs : (s.act env a).state ≠ .disconnected) :
  (s.act env a).transport.hears (s.act env a).generation =
    if s.state = .disconnected then true else s.transport.hears s.generation
  := by
  obtain ⟨hs', hg, hh⟩ | ⟨hd, -⟩ | ⟨hd, -, -, hh⟩ := session_act env hc ha
  · rw [hh, hg, if_neg]
    rw [← hs']
    apply hs
  · apply absurd hd hs
  · rw [hh, if_pos hd]

/-- Acts that are no events of a session keep streams alike. -/
theorem alike_act (hc : s.toLink.Coherent) (hc' : s'.toLink.Coherent) (h : s.Alike s') {a : Act}
    (ha : ∀ n e, a ≠ .event n e) :
  (s.act env a).Alike (s'.act env a)
  := by
  have e : (s.act env a).essence = (s'.act env a).essence :=
    (respects_act env ha).congr h.essence_eq
  refine ⟨e, fun hs => ?_⟩
  have hs' : (s'.act env a).state ≠ .disconnected := by
    rw [← state_eq_of_essence e]
    apply hs
  rw [heard_act hc ha hs, generation_eq_of_essence e, heard_act hc' ha hs', h.state_eq]
  by_cases hd : s'.state = .disconnected
  · simp [hd]
  · rw [if_neg hd, if_neg hd, ← h.generation_eq]
    apply h.heard_eq
    rw [h.state_eq]
    apply hd

/-! ### Events and alike streams -/

variable {n : Nat}

theorem isCurrent_iff :
  s.isCurrent n ↔ s.generation = n ∧ s.state ≠ .disconnected
  := by
  simp [isCurrent]

/-- An opening that is not awaited is only noted. -/
theorem alike_opened (h : ¬ (s.generation = n ∧ s.state = .connecting)) :
  (s.deliver env n .opened).Alike s
  := by
  rw [deliver]
  split
  · rw [handleEvent, opened, if_neg h]
    exact ⟨rfl, fun _ => rfl⟩
  · apply Alike.refl

/-- The end of a session that is not held is only noted. -/
theorem alike_ended (h : ¬ s.isCurrent n) (reason : String) :
  (((s.closed n reason).endDispatch n).note (.dispatchEnded n)).Alike s
  := by
  rw [closed, if_neg h]
  constructor
  · simp
  · intro hs
    have hn : s.generation ≠ n := fun e => h (isCurrent_iff.2 ⟨e, hs⟩)
    apply Eq.trans (s.transport.hears_ignore n s.generation)
    apply if_neg hn

/-- An event of a session that is not held is at most noted. -/
theorem alike_deliver_stale (env : Environment) (h : ¬ s.isCurrent n) (e : SessionEvent) :
  (s.deliver env n e).Alike s
  := by
  cases e with
  | opened =>
    apply alike_opened
    rintro ⟨hg, hs⟩
    apply h
    rw [isCurrent_iff]
    simp [hg, hs]
  | message text =>
    rw [deliver]
    split
    · rw [handleEvent, received, if_neg h]
      apply Alike.refl
    · apply Alike.refl
  | closed reason =>
    rw [deliver]
    split
    · apply alike_ended h
    · apply Alike.refl
  | errored reason =>
    rw [deliver]
    split
    · apply alike_ended h
    · apply Alike.refl

/-- A frame silences its session if the session is held and the lifetime of the quote leads beyond
the clock. -/
theorem hears_received (s : Stream) (n : Nat) (text : String) :
  (s.received env n text).transport.hears n =
    if s.isCurrent n ∧ (s.toDesk.process? env text).isNone then false else s.transport.hears n
  := by
  rw [received]
  by_cases hc : s.isCurrent n
  · rw [if_pos hc]
    cases s.toDesk.process? env text with
    | none =>
      rw [if_pos ⟨hc, rfl⟩]
      apply Eq.trans (s.transport.hears_ignore n n)
      apply if_pos rfl
    | some r => simp
  · rw [if_neg hc, if_neg fun h => hc h.1]

/-- An opening silences nobody. -/
theorem sameHeard_opened (env : Environment) (s : Stream) (n : Nat) :
  (s.opened env n).generation = s.generation ∧
    (s.opened env n).transport.hears = s.transport.hears
  := by
  obtain ⟨-, -, e⟩ | ⟨-, e⟩ := opened_cases env s n
  · rw [e]
    refine ⟨rfl, ?_⟩
    funext k
    exact Transport.hears_post _ _ _ k
  · rw [e]
    exact ⟨rfl, rfl⟩

theorem generation_received (s : Stream) (n : Nat) (text : String) :
  (s.received env n text).generation = s.generation
  := by
  obtain e | e := received_cases env s n text
  · rw [e]
  · rw [e]
    rfl

/-- The end of the session that is held disconnects. -/
theorem state_closed (h : s.isCurrent n) (reason : String) :
  (s.closed n reason).state = .disconnected
  := by
  rw [closed, if_pos h]
  rfl

/-- Events that are heard keep streams alike. -/
theorem alike_handleEvent (h : s.Alike s') (hs : s.state ≠ .disconnected) (e : SessionEvent) :
  (s.handleEvent env s.generation e).Alike (s'.handleEvent env s.generation e)
  := by
  have hc : s.isCurrent s.generation := isCurrent_iff.2 ⟨rfl, hs⟩
  have hh := h.heard_eq hs
  refine ⟨(respects_handleEvent env s.generation e).congr h.essence_eq, fun hs' => ?_⟩
  cases e with
  | opened =>
    obtain ⟨hg, he⟩ := sameHeard_opened env s s.generation
    obtain ⟨-, he'⟩ := sameHeard_opened env s' s.generation
    rw [handleEvent, handleEvent, he, he', hg, hh]
  | message text =>
    have hb : s.toDesk.books = s'.toDesk.books := books_eq_of_essence h.essence_eq
    rw [handleEvent, handleEvent, generation_received, hears_received, hears_received,
      ← h.isCurrent_eq, hh, Desk.isNone_process? env hb]
  | closed reason => apply absurd (state_closed hc reason) hs'
  | errored reason => apply absurd (state_closed hc reason) hs'

theorem alike_deliver (h : s.Alike s') (n : Nat) (e : SessionEvent) :
  (s.deliver env n e).Alike (s'.deliver env n e)
  := by
  by_cases hc : s.isCurrent n
  · obtain ⟨rfl, hs⟩ := isCurrent_iff.1 hc
    rw [deliver, deliver, ← h.heard_eq hs]
    split
    · apply alike_handleEvent h hs
    · apply h
  · have hc' : ¬ s'.isCurrent n := by rwa [← h.isCurrent_eq]
    apply (alike_deliver_stale env hc e).trans
    apply h.trans
    apply (alike_deliver_stale env hc' e).symm

/-- Every action keeps streams alike. -/
theorem alike_step (hc : s.toLink.Coherent) (hc' : s'.toLink.Coherent) (h : s.Alike s')
    (a : Action) :
  (s.step env a).Alike (s'.step env a)
  := by
  -- an action on what surrounds the connection leaves the link alone
  have around {f : Stream → Stream} (hf : Respects f) (hl : ∀ s, (f s).toLink = s.toLink) :
      (f s).Alike (f s') := by
    refine ⟨hf.congr h.essence_eq, ?_⟩
    rw [hl, hl]
    apply h.heard_eq
  cases a with
  | act a =>
    by_cases ha : ∃ n e, a = .event n e
    · obtain ⟨n, e, rfl⟩ := ha
      apply alike_deliver h
    · apply alike_act hc hc' h
      rintro n e rfl
      apply ha
      use n, e
  | time now =>
    exact around (f := ({ · with now })) (respects_of_commutes fun _ => rfl) fun _ => rfl
  | catalog catalog =>
    exact around (f := ({ · with catalog })) (respects_of_commutes fun _ => rfl) fun _ => rfl
  | purge =>
    exact around (f := fun s => { s with cache := s.cache.purge s.now })
      (respects_of_commutes fun _ => rfl) fun _ => rfl
  | report report =>
    exact around (f := ({ · with report })) (respects_of_eq fun _ => rfl) fun _ => rfl

end Stream

end QuoteFeed
