import QuoteFeed.Proofs.Stream.Frames
import QuoteFeed.Proofs.Stream.Session
import QuoteFeed.Proofs.Stream.Timely

/-!
# Pings of a session

In a run on time the timer of a session acts once per keepalive interval, counted from the opening
of the session, until the session ends, and each of these acts offers one ping to the session.
`Stream.Phase` says where a session stands: it is not open yet, or beating, or finished.  Every action
that comes at its time keeps it (`phase_step`), whatever else happens to the stream meanwhile.
-/

namespace QuoteFeed

/-- An act of the timer of an open session. -/
structure Beat where
  time : Nat
  /-- The session takes messages. -/
  taken : Bool
  deriving DecidableEq

/-- The first `k` ticks of a timer after its start. -/
def ticks (start period k : Nat) : List Nat :=
  (List.range k).map fun i => start + (i + 1) * period

theorem ticks_succ (start period k : Nat) :
  ticks start period (k + 1) = ticks start period k ++ [start + (k + 1) * period]
  := by
  rw [ticks, List.range_succ, List.map_append]
  rfl

namespace Stream

/-- The session of a number is open. -/
def Connected (s : Stream) (n : Nat) : Prop :=
  s.state = .connected ∧ s.generation = n

instance (s : Stream) (n : Nat) : Decidable (s.Connected n) :=
  inferInstanceAs (Decidable (_ ∧ _))

/-- The session of a number will not be open any more. -/
def Gone (s : Stream) (n : Nat) : Prop :=
  n < s.generation ∨ n = s.generation ∧ s.state = .disconnected

/-! ### The records of a session -/

/-- By the action the opening of a session is handled. -/
def opens (s : Stream) (n : Nat) : Action → Bool
  | .act (.event m e) => e = .opened ∧ m = n ∧ s.awaits n
  | _ => false

/-- By the action an open session ends: its end is handled, or the stream is stopped. -/
def ends (s : Stream) (n : Nat) : Action → Bool
  | .act .stop => s.Connected n
  | .act (.event m e) => e.isEnd ∧ m = n ∧ s.transport.hears n ∧ s.Connected n
  | _ => false

/-- The action as an act of the timer of an open session. -/
def beat (s : Stream) (n : Nat) : Action → List Beat
  | .act (.ping generation _) =>
    if generation = n ∧ s.Connected n then [⟨s.now, s.transport.accepts n⟩] else []
  | _ => []

variable (env : Environment) (s : Stream) (n : Nat)

/-- When a session takes a ping by the action, once for each. -/
def pinged (a : Action) : List Nat :=
  .replicate (((s.step env a).transport.sentOn n).count .ping -
    (s.transport.sentOn n).count .ping) s.now

/-- When the opening of a session is handled in a run. -/
def openings (as : List Action) : List Nat :=
  s.log env (fun s a => if s.opens n a then [s.now] else []) as

/-- When an open session ends in a run. -/
def endings (as : List Action) : List Nat :=
  s.log env (fun s a => if s.ends n a then [s.now] else []) as

/-- The acts of the timer of a session in a run, while the session is open. -/
def beats (as : List Action) : List Beat :=
  s.log env (fun s a => s.beat n a) as

/-- When a session takes a ping in a run. -/
def pingTimes (as : List Action) : List Nat :=
  s.log env (fun s a => s.pinged env n a) as

variable {env s n}

theorem Gone.not_connected (h : s.Gone n) :
  ¬ s.Connected n
  := by
  rintro ⟨hs, rfl⟩
  obtain h | ⟨-, h⟩ := h
  · apply Nat.lt_irrefl _ h
  · exact nomatch hs.symm.trans h

/-- The opening of a session is handled while the link waits for it. -/
theorem connecting_of_opens {a : Action} (h : s.opens n a) :
  s.state = .connecting ∧ s.generation = n
  := by
  rw [opens.eq_def] at h
  split at h
  · obtain ⟨-, -, -, hg, hs⟩ := of_decide_eq_true h
    exact ⟨hs, hg⟩
  · contradiction

/-- The end of an open session is handled while it is open. -/
theorem connected_of_ends {a : Action} (h : s.ends n a) :
  s.Connected n
  := by
  rw [ends.eq_def] at h
  split at h
  · apply of_decide_eq_true h
  · apply (of_decide_eq_true h).2.2.2
  · contradiction

theorem beat_eq_nil {a : Action} (h : ¬ s.Connected n ∨ ∀ due, a ≠ .act (.ping n due)) :
  s.beat n a = []
  := by
  rw [beat.eq_def]
  split
  · apply if_neg
    rintro ⟨rfl, hc⟩
    obtain h | h := h
    · apply h hc
    · apply h _ rfl
  · rfl

/-! ### What an act does to a session -/

/-- A session opens only when its opening is handled. -/
theorem not_connected_act (h : ¬ s.Connected n) {a : Act} (ho : ¬ s.opens n (.act a)) :
  ¬ (s.act env a).Connected n
  := by
  rintro ⟨hs, hg⟩
  obtain ⟨hs', e⟩ | ⟨rfl, hw, e⟩ := connected_act hs
  · exact h ⟨hs', e.symm.trans hg⟩
  · rw [e] at hg
    subst hg
    exact ho (decide_eq_true ⟨rfl, rfl, hw⟩)

/-- When its opening is handled, a session is open, and the first ping is due an interval later. -/
theorem connected_of_opens (env : Environment) {a : Act} (h : s.opens n (.act a)) :
  (s.act env a).Connected n ∧
    (s.act env a).pingDue = Clock.firstTick? s.now env.settings.stream.keepalive
  := by
  cases a with
  | event m e =>
    obtain ⟨rfl, rfl, hw⟩ := of_decide_eq_true h
    have e := deliver_opened env s m hw
    constructor
    · rw [Connected, act, e]
      exact ⟨rfl, hw.2.1⟩
    · apply congrArg (fun l : Link => l.pinger.bind (·.due)) e
  | _ => contradiction

/-- An act of the timer of an open session sets the timer to the next tick. -/
theorem connected_ping (env : Environment) (hc : s.toLink.Coherent) (h : s.Connected n)
    (due : Nat) :
  (s.act env (.ping n due)).Connected n ∧
    (s.act env (.ping n due)).pingDue =
      some (Clock.nextTick due s.now (max env.settings.stream.keepalive 1))
  := by
  obtain ⟨hs, rfl⟩ := h
  obtain ⟨old, hp⟩ := hc.pinger_some hs
  have e := toLink_pingTick env s s.generation due
  constructor
  · rw [Connected, act, e]
    exact ⟨hs, rfl⟩
  · apply Eq.trans (congrArg (fun l : Link => l.pinger.bind (·.due)) e)
    simp [Link.rewind, Link.post, hp]

/-- An open session that ends will not be open any more. -/
theorem gone_of_ends {a : Act} (h : s.ends n (.act a)) :
  (s.act env a).Gone n
  := by
  cases a with
  | stop =>
    obtain ⟨hs, rfl⟩ := of_decide_eq_true h
    obtain ⟨hd, -, -⟩ | ⟨-, e⟩ := stop_cases env s
    · exact nomatch hs.symm.trans hd
    · right
      rw [act, e]
      exact ⟨rfl, rfl⟩
  | event m e =>
    obtain ⟨he, rfl, hh, hs, rfl⟩ := of_decide_eq_true h
    have hn : s.isCurrent s.generation := by simp [isCurrent, hs]
    right
    rw [act, deliver_end env he hh hn]
    exact ⟨rfl, rfl⟩
  | _ => contradiction

/-- All other acts leave an open session and its timer as they are. -/
theorem connected_act_of_not_ends (env : Environment) (hc : s.toLink.Coherent)
    (h : s.Connected n) {a : Act} (he : ¬ s.ends n (.act a)) (hp : ∀ due, a ≠ .ping n due) :
  (s.act env a).Connected n ∧ (s.act env a).pingDue = s.pingDue
  := by
  have same {l : Link} (e : (s.act env a).toLink = l) (hs : l.state = s.state)
      (hg : l.generation = s.generation) (hk : l.pinger = s.pinger) :
      (s.act env a).Connected n ∧ (s.act env a).pingDue = s.pingDue := by
    subst e
    exact ⟨⟨hs.trans h.1, hg.trans h.2⟩, congrArg (·.bind (·.due)) hk⟩
  obtain ⟨hs, rfl⟩ := h
  cases a with
  | start =>
    obtain ⟨hd, -⟩ | ⟨-, e⟩ := start_cases env s
    · exact nomatch hs.symm.trans hd
    · apply same e rfl rfl rfl
  | stop => exact absurd (decide_eq_true ⟨hs, rfl⟩) he
  | subscribe id =>
    obtain ⟨-, e⟩ | ⟨-, -, e⟩ | ⟨-, hn, -⟩ | ⟨-, hd, -⟩ := subscribe_cases env s id
    · apply same (congrArg toLink e) rfl rfl rfl
    · apply same e rfl rfl rfl
    · apply absurd hs hn
    · exact nomatch hs.symm.trans hd
  | unsubscribe id =>
    obtain ⟨-, e⟩ | ⟨-, -, e⟩ | ⟨-, -, -, e⟩ | ⟨-, -, -, e⟩ := unsubscribe_cases env s id
    · apply same (congrArg toLink e) rfl rfl rfl
    · apply same e rfl rfl rfl
    · apply same e rfl rfl rfl
    · apply same e rfl rfl rfl
  | event m e =>
    have ho : ¬ (e = .opened ∧ s.awaits m) := fun ho => nomatch hs.symm.trans ho.2.2.2
    have hi : ¬ (e.isEnd ∧ s.transport.hears m ∧ s.isCurrent m) := by
      rintro ⟨hi, hh, hn⟩
      obtain rfl : s.generation = m := by
        have hn : s.generation = m ∧ s.state ≠ .disconnected := by simpa [isCurrent] using hn
        apply hn.1
      exact he (decide_eq_true ⟨hi, rfl, hh, hs, rfl⟩)
    obtain e | e := deliver_idle env ho hi
    · apply same e rfl rfl rfl
    · apply same e rfl rfl rfl
  | ping generation due =>
    have hg : s.generation ≠ generation := by
      rintro rfl
      apply hp due rfl
    obtain ⟨old, hk⟩ := hc.pinger_some hs
    apply same (toLink_pingTick env s generation due) rfl rfl
    simp [Link.rewind, Link.post, hk, hg]
  | lose m => apply same rfl rfl rfl rfl
  | outage broken => apply same rfl rfl rfl rfl

/-- A session that is gone stays gone. -/
theorem gone_act (hc : s.toLink.Coherent) (h : s.Gone n) (a : Act) :
  (s.act env a).Gone n
  := by
  have later (hs : s.state ≠ .disconnected) : n < s.generation := by
    obtain h | ⟨-, h⟩ := h
    · apply h
    · apply absurd h hs
  by_cases ha : ∃ m e, a = .event m e
  · obtain ⟨m, e, rfl⟩ := ha
    rw [Gone, act]
    obtain ⟨-, hw, e⟩ | ⟨-, e | e | ⟨hm, e⟩⟩ := deliver_cases env s m e
    · rw [e]
      exact Or.inl (later (by simp [hw.2.2]))
    · rw [e]
      apply h
    · rw [e]
      apply h
    · rw [e]
      left
      apply later
      intro hd
      simp [isCurrent, hd] at hm
  · have ha : ∀ m e, a ≠ .event m e := fun m e he => ha ⟨m, e, he⟩
    obtain ⟨hs, hg, -⟩ | ⟨hs, hg⟩ | ⟨-, -, hg, -⟩ := session_act env hc ha
    · rw [Gone, hs, hg]
      apply h
    · rw [Gone, hs, hg]
      obtain h | ⟨h, -⟩ := h
      · exact Or.inl h
      · exact Or.inr ⟨h, rfl⟩
    · left
      rw [hg]
      obtain h | ⟨rfl, -⟩ := h
      · apply Nat.lt_succ_of_lt h
      · apply Nat.lt_succ_self

/-! ### Where a session stands -/

/-- Where a session stands after a run in which it was opened, and ended, at the times `os` and
`es`, and in which its timer acted as in `bs`. -/
inductive Phase (env : Environment) (n : Nat) (s : Stream) :
    (os es : List Nat) → (bs : List Beat) → Prop
  /-- It never was open. -/
  | silent (closed : ¬ s.Connected n) : Phase env n s [] [] []
  /-- It is open since `t₀`, and the tick number `k` was the last. -/
  | beating {t₀ k : Nat} {bs : List Beat} (connected : s.Connected n)
      (due_eq : s.pingDue = some (t₀ + (k + 1) * env.settings.stream.keepalive))
      (times_eq : bs.map (·.time) = ticks t₀ env.settings.stream.keepalive k)
      (last_le : t₀ + k * env.settings.stream.keepalive ≤ s.now)
      (le_next : s.now ≤ t₀ + (k + 1) * env.settings.stream.keepalive) :
      Phase env n s [t₀] [] bs
  /-- It was open from `t₀` until `t₁`, and the tick number `k` was the last. -/
  | finished {t₀ t₁ k : Nat} {bs : List Beat} (gone : s.Gone n)
      (times_eq : bs.map (·.time) = ticks t₀ env.settings.stream.keepalive k)
      (last_le : t₀ + k * env.settings.stream.keepalive ≤ t₁)
      (le_next : t₁ ≤ t₀ + (k + 1) * env.settings.stream.keepalive) :
      Phase env n s [t₀] [t₁] bs

variable {os es : List Nat} {bs : List Beat}

/-- A session stands where it stood while time passes that is not beyond the next ping. -/
theorem Phase.elapse {s' : Stream} (h : Phase env n s os es bs) (hl : s'.toLink = s.toLink)
    (hn : s.now ≤ s'.now) (hd : ∀ due ∈ s.pingDue, s.now ≤ due → s'.now ≤ due) :
  Phase env n s' os es bs
  := by
  have hc : s'.Connected n ↔ s.Connected n := by rw [Connected, hl, Connected]
  cases h with
  | silent closed => exact .silent fun h => closed (hc.1 h)
  | beating connected due_eq times_eq last_le le_next =>
    apply Phase.beating (hc.2 connected) _ times_eq (Nat.le_trans last_le hn)
      (hd _ due_eq le_next)
    apply Eq.trans (congrArg (fun l : Link => l.pinger.bind (·.due)) hl) due_eq
  | finished gone times_eq last_le le_next =>
    apply Phase.finished _ times_eq last_le le_next
    rw [Gone, hl]
    apply gone

/-- A session that was not opened did not end, and its timer did not act. -/
theorem Phase.eq_nil (h : Phase env n s os es bs) (ho : os = []) :
  es = [] ∧ bs = []
  := by
  cases h with
  | silent closed => exact ⟨rfl, rfl⟩
  | beating connected due_eq times_eq last_le le_next => contradiction
  | finished gone times_eq last_le le_next => contradiction

/-- A session that was opened is open until it ends, or until now, and its timer acts at each tick
until then. -/
theorem Phase.exists_ticks (h : Phase env n s os es bs) {t₀ : Nat} (ho : t₀ ∈ os) :
  os = [t₀] ∧ ∃ t₁ k, (es = [] ∧ s.Connected n ∧ t₁ = s.now ∨ es = [t₁]) ∧
    t₀ + k * env.settings.stream.keepalive ≤ t₁ ∧
    t₁ ≤ t₀ + (k + 1) * env.settings.stream.keepalive ∧
    bs.map (·.time) = ticks t₀ env.settings.stream.keepalive k
  := by
  cases h with
  | silent closed => contradiction
  | @beating _ k _ connected due_eq times_eq last_le le_next =>
    obtain rfl := List.mem_singleton.1 ho
    use rfl, s.now, k
    exact ⟨.inl ⟨rfl, connected, rfl⟩, last_le, le_next, times_eq⟩
  | @finished _ t₁ k _ gone times_eq last_le le_next =>
    obtain rfl := List.mem_singleton.1 ho
    use rfl, t₁, k
    exact ⟨.inr rfl, last_le, le_next, times_eq⟩

/-- An act on the connection takes no time. -/
theorem now_act (env : Environment) (s : Stream) (a : Act) :
  (s.act env a).now = s.now
  := congrArg Prod.fst (setting_act env s a)

/-- A session that opens beats from then on. -/
theorem Phase.open (hp : 0 < env.settings.stream.keepalive)
    (hl : s.now + env.settings.stream.keepalive < Clock.limit) {a : Act}
    (h : s.opens n (.act a)) :
  Phase env n (s.act env a) [s.now] [] []
  := by
  obtain ⟨hc, hd⟩ := connected_of_opens env h
  apply Phase.beating (k := 0) hc
  · rw [hd, Clock.firstTick?, if_neg (Nat.ne_of_gt hp), Clock.after?, if_pos hl]
    simp
  · rfl
  · simp [now_act]
  · rw [now_act]
    apply Nat.le_add_right

/-- The timer of an open session acts at the next tick. -/
theorem Phase.tick (hp : 0 < env.settings.stream.keepalive)
    (hl : s.now + env.settings.stream.keepalive < Clock.limit) (hc : s.toLink.Coherent)
    (hn : s.Connected n) {t₀ k due : Nat} (ha : s.Prompt (.act (.ping n due)))
    (due_eq : s.pingDue = some (t₀ + (k + 1) * env.settings.stream.keepalive))
    (times_eq : bs.map (·.time) = ticks t₀ env.settings.stream.keepalive k) :
  Phase env n (s.act env (.ping n due)) [t₀] [] (bs ++ s.beat n (.act (.ping n due)))
  := by
  obtain ⟨hs, hg⟩ := hn
  obtain ⟨old, hk⟩ := hc.pinger_some hs
  -- the timer that is held acts when it is due, which is now
  obtain ⟨rfl, rfl⟩ := ha _ hk hg
  have ht : s.now = t₀ + (k + 1) * env.settings.stream.keepalive := by
    rw [pingDue, hk] at due_eq
    exact Option.some.inj due_eq
  have hk : (k + 1 + 1) * env.settings.stream.keepalive =
      (k + 1) * env.settings.stream.keepalive + env.settings.stream.keepalive :=
    Nat.succ_mul _ _
  obtain ⟨hc', hd⟩ := connected_ping env hc ⟨hs, hg⟩ s.now
  apply Phase.beating (k := k + 1) hc'
  · rw [hd, Nat.max_eq_left hp, Clock.nextTick, if_neg (by omega), Clock.after?, if_pos hl]
    simp only [Option.getD_some, Option.some.injEq]
    omega
  · rw [beat, if_pos ⟨rfl, hs, hg⟩, List.map_append, times_eq, ticks_succ, ht]
    rfl
  · rw [now_act, ht]
  · rw [now_act]
    omega

/-- An act on the connection that comes at its time takes a session from where it stands to where
it stands then. -/
theorem phase_act (hp : 0 < env.settings.stream.keepalive)
    (hl : s.now + env.settings.stream.keepalive < Clock.limit) (hc : s.toLink.Coherent)
    (h : Phase env n s os es bs) {a : Act} (ha : s.Prompt (.act a)) :
  Phase env n (s.act env a) (os ++ if s.opens n (.act a) then [s.now] else [])
    (es ++ if s.ends n (.act a) then [s.now] else []) (bs ++ s.beat n (.act a))
  := by
  cases h with
  | silent closed =>
    rw [if_neg fun he => closed (connected_of_ends he), beat_eq_nil (.inl closed)]
    by_cases ho : s.opens n (.act a)
    · rw [if_pos ho]
      apply Phase.open hp hl ho
    · rw [if_neg ho]
      exact .silent (not_connected_act closed ho)
  | beating connected due_eq times_eq last_le le_next =>
    have ho : ¬ s.opens n (.act a) := by
      intro ho
      exact nomatch connected.1.symm.trans (connecting_of_opens ho).1
    rw [if_neg ho, List.append_nil]
    by_cases hb : ∃ due, a = .ping n due
    · obtain ⟨due, rfl⟩ := hb
      apply Phase.tick hp hl hc connected ha due_eq times_eq
    · have hb : ∀ due, a ≠ .ping n due := fun due e => hb ⟨due, e⟩
      rw [beat_eq_nil (.inr fun due e => hb due (Action.act.inj e)), List.append_nil]
      by_cases he : s.ends n (.act a)
      · rw [if_pos he]
        exact .finished (gone_of_ends he) times_eq last_le le_next
      · obtain ⟨hc', hd⟩ := connected_act_of_not_ends env hc connected he hb
        rw [← now_act env s a] at last_le le_next
        rw [if_neg he]
        exact .beating hc' (hd.trans due_eq) times_eq last_le le_next
  | finished gone times_eq last_le le_next =>
    have ho : ¬ s.opens n (.act a) := by
      intro ho
      obtain ⟨hs, rfl⟩ := connecting_of_opens ho
      obtain h | ⟨-, h⟩ := gone
      · apply Nat.lt_irrefl _ h
      · exact nomatch hs.symm.trans h
    rw [if_neg ho, if_neg fun he => gone.not_connected (connected_of_ends he),
      beat_eq_nil (.inl gone.not_connected)]
    simp only [List.append_nil]
    exact .finished (gone_act hc gone a) times_eq last_le le_next

/-- Every action that comes at its time takes a session from where it stands to where it stands
then. -/
theorem phase_step (hp : 0 < env.settings.stream.keepalive)
    (hl : s.now + env.settings.stream.keepalive < Clock.limit) (hc : s.toLink.Coherent)
    (h : Phase env n s os es bs) {a : Action} (ha : s.Prompt a) :
  Phase env n (s.step env a) (os ++ if s.opens n a then [s.now] else [])
    (es ++ if s.ends n a then [s.now] else []) (bs ++ s.beat n a)
  := by
  have idle (a : Action) (ho : s.opens n a = false) (he : s.ends n a = false)
      (hb : s.beat n a = []) (hl : (s.step env a).toLink = s.toLink)
      (hn : s.now ≤ (s.step env a).now)
      (hd : ∀ due ∈ s.pingDue, s.now ≤ due → (s.step env a).now ≤ due) :
      Phase env n (s.step env a) (os ++ if s.opens n a then [s.now] else [])
        (es ++ if s.ends n a then [s.now] else []) (bs ++ s.beat n a) := by
    rw [ho, he, hb]
    simpa using h.elapse hl hn hd
  cases a with
  | act a => apply phase_act hp hl hc h ha
  | time now => apply idle (.time now) rfl rfl rfl rfl ha.1 fun due hd _ => ha.2 due hd
  | catalog c => apply idle (.catalog c) rfl rfl rfl rfl (Nat.le_refl _) fun _ _ h => h
  | purge => apply idle .purge rfl rfl rfl rfl (Nat.le_refl _) fun _ _ h => h
  | report r => apply idle (.report r) rfl rfl rfl rfl (Nat.le_refl _) fun _ _ h => h

theorem phase_run (hp : 0 < env.settings.stream.keepalive) (n : Nat) (as : List Action)
    (ht : initial.Timely env as)
    (hl : (initial.run env as).now + env.settings.stream.keepalive < Clock.limit) :
  Phase env n (initial.run env as) (initial.openings env n as) (initial.endings env n as)
    (initial.beats env n as)
  := by
  induction as using List.reverseRecOn with
  | nil =>
    apply Phase.silent
    rintro ⟨hs, -⟩
    contradiction
  | append_singleton as a ih =>
    obtain ⟨ht, ha⟩ := timely_concat.1 ht
    rw [run_concat] at hl ⊢
    have hl : (initial.run env as).now + env.settings.stream.keepalive < Clock.limit :=
      Nat.lt_of_le_of_lt (Nat.add_le_add_right ha.now_le _) hl
    rw [openings, endings, beats, log_concat, log_concat, log_concat]
    apply phase_step hp hl (coherent_run env as) (ih ht hl) ha

/-! ### The pings that are taken -/

/-- Of the messages that an act costs, the only ping is that of the timer of the open session. -/
theorem count_offers (env : Environment) (s : Stream) (a : Act) :
  (s.offers env a).count .ping = (s.beat s.generation (.act a)).length
  := by
  have other {m : MarketId → Outbound} (hm : ∀ id, m id ≠ .ping) (ids : List MarketId) :
      (ids.map m).count .ping = 0 := by
    rw [List.count_eq_zero, List.mem_map]
    rintro ⟨id, -, e⟩
    apply hm id e
  have hs : ∀ id, subscribeMessage env id ≠ .ping := fun _ => nofun
  have hu : ∀ id, unsubscribeMessage env id ≠ .ping := fun _ => nofun
  cases a with
  | start => rfl
  | stop =>
    rw [offers, withdrawals]
    split
    · apply other hu
    · rfl
  | subscribe id =>
    rw [offers]
    split
    · apply other hs [id]
    · rfl
  | unsubscribe id =>
    rw [offers]
    split
    · apply other hu [id]
    · rfl
  | event m e =>
    rw [offers]
    split
    · apply other hs
    · rfl
  | ping generation due =>
    rw [offers, pings, beat]
    by_cases h : s.generation = generation ∧ s.state = .connected
    · rw [if_pos h, if_pos ⟨h.1.symm, h.2, rfl⟩]
      rfl
    · rw [if_neg h, if_neg fun hg => h ⟨hg.1.symm, hg.2.1⟩]
      rfl
  | lose m => rfl
  | outage broken => rfl

/-- The times of the acts of a timer at which its session takes messages. -/
theorem times_beat (s : Stream) (n : Nat) (a : Action) :
  ((s.beat n a).filter (·.taken)).map (·.time) =
    if s.transport.accepts n then .replicate (s.beat n a).length s.now else []
  := by
  rw [beat.eq_def]
  split
  · split
    · cases s.transport.accepts n with
      | false => rfl
      | true => rfl
    · simp
  · simp

/-- A session takes a ping at each act of its timer at which it takes messages, and at no other
time. -/
theorem pinged_eq (hc : s.toLink.Coherent) (a : Action) :
  s.pinged env n a = ((s.beat n a).filter (·.taken)).map (·.time)
  := by
  have idle {a : Action} (hl : (s.step env a).toLink = s.toLink) (hb : s.beat n a = []) :
      s.pinged env n a = ((s.beat n a).filter (·.taken)).map (·.time) := by
    rw [pinged, hl, hb, Nat.sub_self]
    rfl
  cases a with
  | act a =>
    rw [pinged, step, sentOn_act hc, List.count_append, Nat.add_sub_cancel_left, times_beat]
    by_cases hg : s.generation = n
    · subst hg
      by_cases ht : s.transport.accepts s.generation
      · rw [if_pos ⟨ht, rfl⟩, if_pos ht, count_offers]
      · rw [if_neg fun h => ht h.1, if_neg ht]
        rfl
    · rw [if_neg fun h => hg h.2, beat_eq_nil (.inl fun h => hg h.2)]
      simp
  | time now => apply idle rfl rfl
  | catalog c => apply idle rfl rfl
  | purge => apply idle rfl rfl
  | report r => apply idle rfl rfl

theorem pingTimes_eq (hc : s.toLink.Coherent) (as : List Action) :
  s.pingTimes env n as = ((s.beats env n as).filter (·.taken)).map (·.time)
  := by
  induction as generalizing s with
  | nil => rfl
  | cons a as ih =>
    have ih := ih (s := s.step env a) (coherent_step hc a)
    rw [pingTimes, beats] at ih
    rw [pingTimes, beats, log, log, List.filter_append, List.map_append, ih, pinged_eq hc]

/-- No message that a session took is taken back. -/
theorem count_sentOn_le (env : Environment) (hc : s.toLink.Coherent) (n : Nat) (a : Action)
    (m : Outbound) :
  (s.transport.sentOn n).count m ≤ ((s.step env a).transport.sentOn n).count m
  := by
  cases a with
  | act a =>
    rw [step, sentOn_act hc, List.count_append]
    apply Nat.le_add_right
  | _ => apply Nat.le_refl

/-- The pings that a session takes are among the messages that it took. -/
theorem length_pingTimes (hc : s.toLink.Coherent) (as : List Action) :
  (s.transport.sentOn n).count .ping + (s.pingTimes env n as).length =
    ((s.run env as).transport.sentOn n).count .ping
  := by
  induction as generalizing s with
  | nil => rfl
  | cons a as ih =>
    have ih := ih (s := s.step env a) (coherent_step hc a)
    have hle := count_sentOn_le env hc n a .ping
    rw [pingTimes] at ih
    rw [pingTimes, log, List.length_append, pinged, List.length_replicate, run, List.foldl_cons]
    rw [run] at ih
    omega

/-- The timer of a session that is gone acts without effect. -/
theorem beats_of_gone (hc : s.toLink.Coherent) (h : s.Gone n) (as : List Action) :
  s.beats env n as = []
  := by
  induction as generalizing s with
  | nil => rfl
  | cons a as ih =>
    have h' : (s.step env a).Gone n := by
      cases a with
      | act a => apply gone_act hc h
      | _ => apply h
    rw [beats, log, beat_eq_nil (.inl h.not_connected), List.nil_append]
    apply ih (coherent_step hc a) h'

theorem beats_append (as bs : List Action) :
  s.beats env n (as ++ bs) = s.beats env n as ++ (s.run env as).beats env n bs
  := log_append _ as bs

/-- After the end of a session its timer does not act in a run. -/
theorem beats_of_ends (hc : s.toLink.Coherent) {a : Action} (h : s.ends n a) (as : List Action) :
  s.beats env n (a :: as) = []
  := by
  have hb : s.beat n a = [] := by
    apply beat_eq_nil
    right
    rintro due rfl
    contradiction
  have hg : (s.step env a).Gone n := by
    cases a with
    | act a => apply gone_of_ends h
    | _ => contradiction
  rw [beats, log, hb, List.nil_append]
  apply beats_of_gone (coherent_step hc a) hg

/-! ### The pings of a run -/

/-- On every run on time in which the clock does not come to its limit, the acts of the timer of a
session are one at each tick after the opening, the last at or before the end of the session or
now, and none is missing before.  No act follows the end, so that of a tick and an end at the same
instant the one that is handled first counts.  The pings that the session takes are those of the
acts at which it takes messages, and a session that was not opened takes none. -/
theorem pings_after_run (env : Environment) (n : Nat) (as : List Action)
    (hp : 0 < env.settings.stream.keepalive) (ht : initial.Timely env as)
    (hl : (initial.run env as).now + env.settings.stream.keepalive < Clock.limit) :
  let s := initial.run env as
  let period := env.settings.stream.keepalive
  let beats := initial.beats env n as
  let pings := initial.pingTimes env n as
  (s.transport.sentOn n).count .ping = pings.length ∧
    pings = (beats.filter (·.taken)).map (·.time) ∧
    (initial.openings env n as = [] → initial.endings env n as = [] ∧ beats = []) ∧
    (∀ t₀ ∈ initial.openings env n as, initial.openings env n as = [t₀] ∧
      ∃ t₁ k, (initial.endings env n as = [] ∧ s.Connected n ∧ t₁ = s.now ∨
          initial.endings env n as = [t₁]) ∧
        t₀ + k * period ≤ t₁ ∧ t₁ ≤ t₀ + (k + 1) * period ∧
        beats.map (·.time) = ticks t₀ period k ∧
        ((∀ b ∈ beats, b.taken) → pings = ticks t₀ period k)) ∧
    ∀ before a after, as = before ++ a :: after → (initial.run env before).ends n a →
      beats = initial.beats env n before
  := by
  intro s period beats pings
  have hpings : pings = (beats.filter (·.taken)).map (·.time) := pingTimes_eq coherent_initial as
  have hphase := phase_run hp n as ht hl
  refine ⟨?_, hpings, ?_, ?_, ?_⟩
  · rw [← length_pingTimes coherent_initial as]
    apply Nat.zero_add
  · apply hphase.eq_nil
  · intro t₀ h₀
    obtain ⟨ho, t₁, k, he, hk, hk', hb⟩ := hphase.exists_ticks h₀
    use ho, t₁, k, he, hk, hk', hb
    intro htaken
    rw [hpings, List.filter_eq_self.2 htaken]
    apply hb
  · rintro before a after rfl he
    have hc := coherent_run env before
    change initial.beats env n (before ++ a :: after) = initial.beats env n before
    rw [beats_append, beats_of_ends hc he, List.append_nil]

/-- A run in which a session is open for nine seconds. -/
def nineSeconds : List Action :=
  [.act .start, .act (.event 1 .opened), .time (Duration.seconds 4),
    .act (.ping 1 (Duration.seconds 4)), .act (.subscribe ⟨"BTC-EUR"⟩), .act .start,
    .time (Duration.seconds 8), .act (.ping 1 (Duration.seconds 8)), .time (Duration.seconds 9),
    .act (.event 1 (.closed "bye"))]

/-- The session takes two pings, after four seconds and after eight. -/
theorem pings_of_nine_seconds :
  0 < Environment.standard.settings.stream.keepalive ∧ initial.Timely .standard nineSeconds ∧
    (initial.run .standard nineSeconds).now + Environment.standard.settings.stream.keepalive <
      Clock.limit ∧
    initial.pingTimes .standard 1 nineSeconds = [Duration.seconds 4, Duration.seconds 8]
  := by
  have hp : 0 < Environment.standard.settings.stream.keepalive := by decide
  have ht : initial.Timely .standard nineSeconds := by decide +kernel
  have hl : (initial.run .standard nineSeconds).now +
      Environment.standard.settings.stream.keepalive < Clock.limit := by decide +kernel
  have ho : initial.openings .standard 1 nineSeconds = [0] := by decide +kernel
  have he : initial.endings .standard 1 nineSeconds = [Duration.seconds 9] := by decide +kernel
  have hb : ∀ b ∈ initial.beats .standard 1 nineSeconds, b.taken := by decide +kernel
  refine ⟨hp, ht, hl, ?_⟩
  obtain ⟨-, -, -, h, -⟩ := pings_after_run .standard 1 nineSeconds hp ht hl
  obtain ⟨-, t₁, k, h₁, hk, hk', -, h⟩ := h 0 (by rw [ho]; apply List.mem_singleton_self)
  rw [he] at h₁
  obtain rfl : Duration.seconds 9 = t₁ := by simpa using h₁
  obtain rfl : k = 2 := by
    change 0 + k * Duration.millis 4000 ≤ Duration.seconds 9 at hk
    change Duration.seconds 9 ≤ 0 + (k + 1) * Duration.millis 4000 at hk'
    rw [Duration.seconds, Duration.millis] at hk hk'
    omega
  rw [h hb]
  decide +kernel

end Stream

end QuoteFeed
