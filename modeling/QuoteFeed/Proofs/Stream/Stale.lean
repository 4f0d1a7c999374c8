import QuoteFeed.Proofs.Stream.Alike

/-!
# Stale events

A session is superseded once a later one was asked for, and it is over once the stream was stopped
or the session closed or failed.  What such a session still reports is stale, and so are its pings
and a repeated opening of a session.  `Past` records beside a run which sessions opened and which
are over, and `fresh` leaves the stale actions out of a run.  Without them the run ends in the same
way (`fresh_run_agrees`).
-/

namespace QuoteFeed.Stream

/-- What the sessions of a run went through so far. -/
structure Past where
  /-- The sessions whose opening was handled. -/
  opened : List Nat
  /-- The sessions that were stopped, or whose close or failure was handled. -/
  ended : List Nat

namespace Past

/-- The past before a run. -/
def none : Past := ⟨[], []⟩

/-- The past after the end of a session was handled. -/
def close (p : Past) (s : Stream) (n : Nat) : Past :=
  if s.transport.hears n then { p with ended := n :: p.ended } else p

/-- The past after an action on a stream.  An event of a session that is not heard is not
handled. -/
def extend (p : Past) (s : Stream) : Action → Past
  | .act .stop => { p with ended := s.transport.connects :: p.ended }
  | .act (.event n .opened) =>
    if s.transport.hears n then { p with opened := n :: p.opened } else p
  | .act (.event n (.closed _)) => p.close s n
  | .act (.event n (.errored _)) => p.close s n
  | _ => p

/-- The session of a number was superseded or is over. -/
def isOver (p : Past) (s : Stream) (n : Nat) : Bool :=
  n < s.transport.connects || n ∈ p.ended

/-- An event or a ping of a session that was superseded or is over, or a repeated opening. -/
def isStale (p : Past) (s : Stream) : Action → Bool
  | .act (.event n e) => p.isOver s n || (e = .opened && n ∈ p.opened)
  | .act (.ping n _) => p.isOver s n
  | _ => false

end Past

/-- The actions of a run that are not stale. -/
def fresh (env : Environment) (s : Stream) (p : Past) : List Action → List Action
  | [] => []
  | a :: as =>
    let rest := fresh env (s.step env a) (p.extend s a) as
    if p.isStale s a then rest else a :: rest

variable {env : Environment} {s s' : Stream} {p : Past} {n : Nat}

/-! ### The past and the link -/

/-- The link knows what its session went through. -/
structure Past.Agrees (p : Past) (l : Link) : Prop where
  opened_le : ∀ n ∈ p.opened, n ≤ l.generation
  ended_le : ∀ n ∈ p.ended, n ≤ l.generation
  /-- A session that opened is no longer waited for. -/
  opened_held : l.generation ∈ p.opened → l.state ≠ .connecting
  /-- A session that is over is not held. -/
  ended_held : l.generation ∈ p.ended → l.state = .disconnected

namespace Past.Agrees

variable {l l' : Link}

theorem congr (h : p.Agrees l) (hs : l'.state = l.state) (hg : l'.generation = l.generation) :
  p.Agrees l'
  where
  opened_le := by
    rw [hg]
    apply h.opened_le
  ended_le := by
    rw [hg]
    apply h.ended_le
  opened_held := by
    rw [hs, hg]
    apply h.opened_held
  ended_held := by
    rw [hs, hg]
    apply h.ended_held

theorem sessionOver (h : p.Agrees l) (ho : l.SessionOver l') :
  p.Agrees l'
  where
  opened_le := by
    rw [ho.2]
    apply h.opened_le
  ended_le := by
    rw [ho.2]
    apply h.ended_le
  opened_held _ := by simp [ho.1]
  ended_held _ := ho.1

/-- A session that was waited for is held from then on. -/
theorem connect (h : p.Agrees l) (hs : l.state = .connecting) (env : Environment)
    (due : Option Nat) :
  p.Agrees (l.connect env due)
  where
  opened_le := h.opened_le
  ended_le := h.ended_le
  opened_held _ := nofun
  ended_held hm := by
    have hd := h.ended_held hm
    rw [hs] at hd
    contradiction

/-- Of the session that is asked for next nothing is known. -/
theorem next (h : p.Agrees l) (hn : l.NextSession l') :
  p.Agrees l'
  where
  opened_le n hm := by
    rw [hn.2.2.1]
    exact Nat.le_succ_of_le (h.opened_le n hm)
  ended_le n hm := by
    rw [hn.2.2.1]
    exact Nat.le_succ_of_le (h.ended_le n hm)
  opened_held hm := by
    rw [hn.2.2.1] at hm
    exact absurd (h.opened_le _ hm) (Nat.not_succ_le_self _)
  ended_held hm := by
    rw [hn.2.2.1] at hm
    exact absurd (h.ended_le _ hm) (Nat.not_succ_le_self _)

/-- A session opened that is not waited for any more. -/
theorem opened (h : p.Agrees l) (hn : n ≤ l.generation)
    (hs : l.generation = n → l.state ≠ .connecting) :
  { p with opened := n :: p.opened }.Agrees l
  where
  opened_le := by
    rw [List.forall_mem_cons]
    exact ⟨hn, h.opened_le⟩
  ended_le := h.ended_le
  opened_held hm := by
    obtain e | hm := List.mem_cons.1 hm
    · apply hs e
    · apply h.opened_held hm
  ended_held := h.ended_held

/-- A session is over that is not held any more. -/
theorem ended (h : p.Agrees l) (hn : n ≤ l.generation)
    (hs : l.generation = n → l.state = .disconnected) :
  { p with ended := n :: p.ended }.Agrees l
  where
  opened_le := h.opened_le
  ended_le := by
    rw [List.forall_mem_cons]
    exact ⟨hn, h.ended_le⟩
  opened_held := h.opened_held
  ended_held hm := by
    obtain e | hm := List.mem_cons.1 hm
    · apply hs e
    · apply h.ended_held hm

/-- A session that was superseded or is over is not held. -/
theorem not_current (h : p.Agrees s.toLink) (hc : s.toLink.Coherent) (ho : p.isOver s n) :
  ¬ s.isCurrent n
  := by
  rw [isCurrent_iff]
  rintro ⟨rfl, hs⟩
  rw [Past.isOver, Bool.or_eq_true, decide_eq_true_iff, decide_eq_true_iff] at ho
  obtain hlt | hm := ho
  · rw [show s.generation = s.transport.connects from hc.generation_eq] at hlt
    apply Nat.lt_irrefl _ hlt
  · apply hs (h.ended_held hm)

end Past.Agrees

/-! ### The past goes along -/

/-- A session that is heard was asked for. -/
theorem le_generation (hc : s.toLink.Coherent) (h : s.transport.hears n) :
  n ≤ s.generation
  := by
  rw [show s.generation = s.transport.connects from hc.generation_eq]
  apply Transport.le_connects _ _ h

/-- Opening a session is in the past from then on. -/
theorem agrees_opened (hc : s.toLink.Coherent) (h : p.Agrees s.toLink) (n : Nat) :
  (p.extend s (.act (.event n .opened))).Agrees (s.deliver env n .opened).toLink
  := by
  rw [Past.extend, deliver]
  split
  · rename_i hh
    have hn := le_generation hc hh
    rw [handleEvent]
    obtain ⟨-, hs, e⟩ | ⟨hw, e⟩ := opened_cases env s n
    · rw [e]
      apply (h.connect hs env _).opened hn
      intro _ hs'
      contradiction
    · rw [e]
      apply h.opened hn
      intro hg hs
      exact hw ⟨hg, hs⟩
  · apply h

/-- The end of a session is in the past from then on. -/
theorem agrees_closed (hc : s.toLink.Coherent) (h : p.Agrees s.toLink) (hh : s.transport.hears n)
    (reason : String) :
  { p with ended := n :: p.ended }.Agrees
    (((s.closed n reason).endDispatch n).note (.dispatchEnded n)).toLink
  := by
  have hn := le_generation hc hh
  by_cases hcur : s.isCurrent n
  · rw [closed, if_pos hcur]
    have ho : p.Agrees (s.toLink.reset.silence n) := h.sessionOver ⟨rfl, rfl⟩
    apply ho.ended hn
    intro _
    rfl
  · rw [closed, if_neg hcur]
    have hq : p.Agrees (s.toLink.silence n) := h.congr rfl rfl
    apply hq.ended hn
    intro hg
    by_contra hs
    exact hcur (isCurrent_iff.2 ⟨hg, hs⟩)

/-- What a session went through is in the past from then on. -/
theorem agrees_deliver (hc : s.toLink.Coherent) (h : p.Agrees s.toLink) (n : Nat)
    (e : SessionEvent) :
  (p.extend s (.act (.event n e))).Agrees (s.deliver env n e).toLink
  := by
  cases e with
  | opened => apply agrees_opened hc h
  | message text =>
    rw [deliver]
    split
    · obtain e | e := received_cases env s n text
      · rw [handleEvent, e]
        apply h
      · rw [handleEvent, e]
        have hq : p.Agrees (s.toLink.silence n) := h.congr rfl rfl
        apply hq
    · apply h
  | closed reason =>
    rw [Past.extend, Past.close, deliver]
    split
    · rename_i hh
      apply agrees_closed hc h hh
    · apply h
  | errored reason =>
    rw [Past.extend, Past.close, deliver]
    split
    · rename_i hh
      apply agrees_closed hc h hh
    · apply h

/-- An act that is no event of a session leaves the past as it is, but for the session that a stop
ends. -/
theorem agrees_act (hc : s.toLink.Coherent) (h : p.Agrees s.toLink) (a : Act) :
  (p.extend s (.act a)).Agrees (s.act env a).toLink
  := by
  by_cases ha : ∃ n e, a = .event n e
  · obtain ⟨n, e, rfl⟩ := ha
    apply agrees_deliver hc h
  · have hact : p.Agrees (s.act env a).toLink := by
      have hne (n : Nat) (e : SessionEvent) : a ≠ .event n e := fun eq => ha ⟨n, e, eq⟩
      obtain ⟨hs, hg, -⟩ | ho | hn := session_act env hc hne
      · apply h.congr hs hg
      · apply h.sessionOver ho
      · apply h.next hn
    cases a with
    | stop =>
      have ho : s.toLink.SessionOver (s.stop env).toLink := by
        obtain ⟨hs, -, e⟩ | ⟨-, e⟩ := stop_cases env s
        · rw [e]
          exact ⟨hs, rfl⟩
        · rw [e]
          exact ⟨rfl, rfl⟩
      apply hact.ended
      · exact Nat.le_of_eq (ho.2.trans hc.generation_eq).symm
      · intro _
        apply ho.1
    | event n e => apply absurd ⟨n, e, rfl⟩ ha
    | _ => apply hact

/-- Every action keeps the past and the link in agreement. -/
theorem agrees_step (hc : s.toLink.Coherent) (h : p.Agrees s.toLink) (a : Action) :
  (p.extend s a).Agrees (s.step env a).toLink
  := by
  cases a with
  | act a => apply agrees_act hc h
  | _ => apply h

/-! ### Runs without stale actions -/

/-- A ping of a session that is not held is without effect. -/
theorem pingTick_stale (hc : s.toLink.Coherent) (h : ¬ s.isCurrent n) (due : Nat) :
  s.pingTick env n due = s
  := by
  have hs : ¬ (s.generation = n ∧ s.state = .connected) := by
    rintro ⟨hg, hs⟩
    apply h
    rw [isCurrent_iff]
    simp [hg, hs]
  rw [pingTick, ping, if_neg hs, setPinger]
  by_cases hd : s.state = .connected
  · obtain ⟨due', hp⟩ := hc.pinger_some hd
    have hg : s.generation ≠ n := fun hg => hs ⟨hg, hd⟩
    have hp : s.pinger = some ⟨s.generation, due'⟩ := hp
    rw [hp, Option.map_some, if_neg hg, ← hp]
  · have hp : s.pinger = none := hc.pinger_none hd
    rw [hp, Option.map_none, ← hp]

/-- A stale action changes nothing that can be told apart. -/
theorem alike_stale (hc : s.toLink.Coherent) (h : p.Agrees s.toLink) {a : Action}
    (ha : p.isStale s a) :
  (s.step env a).Alike s
  := by
  cases a with
  | act a =>
    cases a with
    | event n e =>
      rw [Past.isStale, Bool.or_eq_true] at ha
      obtain ho | hr := ha
      · apply alike_deliver_stale env (h.not_current hc ho)
      · rw [Bool.and_eq_true, decide_eq_true_iff, decide_eq_true_iff] at hr
        obtain ⟨rfl, hm⟩ := hr
        apply alike_opened
        rintro ⟨rfl, hs⟩
        exact h.opened_held hm hs
    | ping n due =>
      apply Eq.subst (motive := (Alike · s)) (pingTick_stale hc (h.not_current hc ha) due).symm
      apply Alike.refl
    | _ => simp [Past.isStale] at ha
  | _ => simp [Past.isStale] at ha

/-- From alike streams on, a run and the run without stale actions end in alike streams. -/
theorem alike_fresh (as : List Action) (hc : s.toLink.Coherent) (hc' : s'.toLink.Coherent)
    (hp : p.Agrees s.toLink) (h : s.Alike s') :
  (s.run env as).Alike (s'.run env (fresh env s p as))
  := by
  induction as generalizing s s' p with
  | nil => apply h
  | cons a as ih =>
    rw [fresh]
    split
    · rename_i ha
      apply ih (coherent_step hc a) hc' (agrees_step hc hp a)
      apply (alike_stale hc hp ha).trans h
    · apply ih (coherent_step hc a) (coherent_step hc' a) (agrees_step hc hp a)
      apply alike_step hc hc' h

theorem agrees_none {l : Link} :
  Past.none.Agrees l
  where
  opened_le := by simp [Past.none]
  ended_le := by simp [Past.none]
  opened_held := by simp [Past.none]
  ended_held := by simp [Past.none]

/-- Leaving out of a run what superseded and ended sessions still report, their pings and the
repeated openings of a session, leaves the connection, the cache, the keepalive and all messages as
they are. -/
theorem fresh_run_agrees (env : Environment) (as : List Action) :
  let s := initial.run env as
  let s' := initial.run env (fresh env initial .none as)
  s'.state = s.state ∧ s'.generation = s.generation ∧ s'.handle = s.handle ∧
    s'.subscribed = s.subscribed ∧ s'.pending = s.pending ∧ s'.pinger = s.pinger ∧
    s'.stopped = s.stopped ∧ s'.transport.connects = s.transport.connects ∧
    s'.cache = s.cache ∧ s'.keepalive = s.keepalive ∧ s'.transport.sent = s.transport.sent
  := by
  intro s s'
  have h : s'.Alike s :=
    (alike_fresh as coherent_initial coherent_initial agrees_none (Alike.refl _)).symm
  have link {α : Type} (f : Link → α) : f s'.essence.toLink = f s.essence.toLink :=
    congrArg (fun s => f s.toLink) h.essence_eq
  have desk {α : Type} (f : Desk → α) : f s'.toDesk.books = f s.toDesk.books :=
    congrArg f h.books_eq
  exact ⟨h.state_eq, h.generation_eq, link Link.handle, link Link.subscribed, link Link.pending,
    link Link.pinger, h.stopped_eq, h.connects_eq, desk Desk.cache, desk Desk.keepalive, h.sent_eq⟩

/-- A repeated opening and the end of a session that was stopped are stale. -/
example :
  (fresh .standard initial .none
    [.act .start, .act (.event 1 .opened), .act (.event 1 .opened), .act .stop,
      .act (.event 1 (.closed "bye"))]).length = 3
  := rfl

end QuoteFeed.Stream
