import QuoteFeed.Proofs.Stream.Frames

/-!
# Synchronising a stream in any state

`Stream.sync` carries out calls one after the other on a stream that changes under them.  Whatever
its state, the markets of interest end up as wanted.  On an open session every call costs one
message, otherwise none does, and the first that adds a market may ask for a session.
-/

namespace QuoteFeed

/-- The act that a call amounts to. -/
def Call.act : Call → Stream.Act
  | .subscribe id => .subscribe id
  | .unsubscribe id => .unsubscribe id

/-- The message that carries out a call. -/
def Call.message (env : Environment) : Call → Outbound
  | .subscribe id => Stream.subscribeMessage env id
  | .unsubscribe id => Stream.unsubscribeMessage env id

namespace Stream

variable {env : Environment} {s : Stream}

/-! ### The markets of interest -/

theorem call_eq_act (c : Call) :
  s.call env c = s.act env c.act
  := by
  cases c with
  | subscribe id => rfl
  | unsubscribe id => rfl

theorem run_calls (cs : List Call) :
  cs.foldl (call env) s = s.run env (cs.map fun c => .act c.act)
  := by
  induction cs generalizing s with
  | nil => rfl
  | cons c cs ih =>
    rw [List.foldl_cons, ih, call_eq_act]
    rfl

/-- No call revokes a stop. -/
theorem stopped_call (c : Call) :
  (s.call env c).stopped = s.stopped
  := by
  cases c with
  | subscribe id =>
    obtain ⟨-, e⟩ | ⟨-, -, e⟩ | ⟨-, -, -, e⟩ | ⟨-, -, -, e⟩ := subscribe_cases env s id
    · rw [call, e]
    · rw [call, e]
      rfl
    · rw [call, e]
      rfl
    · rw [call, e]
      rfl
  | unsubscribe id =>
    obtain ⟨-, e⟩ | ⟨-, -, e⟩ | ⟨-, -, -, e⟩ | ⟨-, -, -, e⟩ := unsubscribe_cases env s id
    · rw [call, e]
    · rw [call, e]
      rfl
    · rw [call, e]
      rfl
    · rw [call, e]
      rfl

theorem stopped_calls (cs : List Call) :
  (cs.foldl (call env) s).stopped = s.stopped
  := by
  induction cs generalizing s with
  | nil => rfl
  | cons c cs ih => rw [List.foldl_cons, ih, stopped_call]

/-- A call changes the markets of interest in every state. -/
theorem subscribed_call (c : Call) :
  (s.call env c).subscribed = s.subscribed.apply c
  := by
  cases c with
  | subscribe id => apply subscribed_subscribe
  | unsubscribe id => apply subscribed_unsubscribe

theorem subscribed_calls (cs : List Call) :
  (cs.foldl (call env) s).subscribed = cs.foldl IdSet.apply s.subscribed
  := by
  induction cs generalizing s with
  | nil => rfl
  | cons c cs ih => rw [List.foldl_cons, ih, subscribed_call, List.foldl_cons]

/-- A synchronisation does to the link what its calls do. -/
theorem toLink_sync (wanted : IdSet) :
  (s.sync env wanted).2.toLink =
    ((Changes.between wanted s.subscribed).calls.foldl (call env) s).toLink
  := by
  rw [sync]
  dsimp only
  split
  · rename_i h
    rw [Changes.isEmpty, Bool.and_eq_true, IdSet.isEmpty, IdSet.isEmpty, List.isEmpty_iff,
      List.isEmpty_iff] at h
    rw [Changes.calls, h.1, h.2]
    rfl
  · rfl

/-- The changes of a synchronisation lead to the wanted markets. -/
theorem changes_sync (wanted : IdSet) :
  (s.sync env wanted).1 = Changes.between wanted s.subscribed
  := by
  rw [sync]
  dsimp only
  split
  · rfl
  · rfl

/-- After a synchronisation the markets of interest are those that are wanted. -/
theorem subscribed_sync (wanted : IdSet) :
  (s.sync env wanted).2.subscribed = wanted
  := by
  rw [toLink_sync]
  apply Eq.trans (subscribed_calls _)
  apply IdSet.foldl_apply_calls

/-- If the markets of interest are those that are wanted, nothing happens. -/
theorem sync_self (wanted : IdSet) (h : s.subscribed = wanted) :
  s.sync env wanted = (⟨.empty, .empty⟩, s)
  := by
  have hd : wanted.diff wanted = .empty := by
    apply IdSet.ext
    intro a
    rw [IdSet.mem_diff]
    simp
  have hc : Changes.between wanted wanted = ⟨.empty, .empty⟩ := by
    rw [Changes.between, hd]
  rw [sync, h, hc]
  rfl

/-! ### On an open session -/

/-- A call leaves an open session open. -/
theorem connected_call (env : Environment) (hs : s.state = .connected) (c : Call) :
  (s.call env c).state = .connected ∧ (s.call env c).generation = s.generation ∧
    ∀ n, (s.call env c).transport.accepts n = s.transport.accepts n
  := by
  cases c with
  | subscribe id =>
    obtain ⟨-, e⟩ | ⟨-, -, e⟩ | ⟨-, h, -⟩ | ⟨-, h, -⟩ := subscribe_cases env s id
    · rw [call, e]
      exact ⟨hs, rfl, fun _ => rfl⟩
    · rw [call, e]
      exact ⟨hs, rfl, fun n => Transport.accepts_post _ _ _ n⟩
    · apply absurd hs h
    · exact nomatch hs.symm.trans h
  | unsubscribe id =>
    obtain ⟨-, e⟩ | ⟨-, -, e⟩ | ⟨-, -, -, e⟩ | ⟨-, -, h, -⟩ := unsubscribe_cases env s id
    · rw [call, e]
      exact ⟨hs, rfl, fun _ => rfl⟩
    · rw [call, e]
      exact ⟨hs, rfl, fun _ => rfl⟩
    · rw [call, e]
      exact ⟨hs, rfl, fun n => Transport.accepts_post _ _ _ n⟩
    · apply absurd hs h

/-- On an open session a call that is due costs one message. -/
theorem sent_call (hc : s.toLink.Coherent) (hs : s.state = .connected)
    (ht : s.transport.accepts s.generation) {c : Call} (hd : s.subscribed.Due c) :
  (s.call env c).transport.sent = s.transport.sent ++ [⟨s.generation, c.message env⟩]
  := by
  have ho : s.offers env c.act = [c.message env] := by
    cases c with
    | subscribe id => apply if_pos ⟨hs, hd⟩
    | unsubscribe id => apply if_pos ⟨hs, hd⟩
  rw [call_eq_act, sent_act hc, ho, taken, if_pos ht]
  rfl

/-- On an open session calls that are due cost one message each. -/
theorem sent_calls (hc : s.toLink.Coherent) (hs : s.state = .connected)
    (ht : s.transport.accepts s.generation) {cs : List Call} (hd : s.subscribed.AllDue cs) :
  (cs.foldl (call env) s).transport.sent =
    s.transport.sent ++ cs.map fun c => ⟨s.generation, c.message env⟩
  := by
  induction cs generalizing s with
  | nil => simp
  | cons c cs ih =>
    obtain ⟨hs', hg, ht'⟩ := connected_call env hs c
    rw [List.foldl_cons, ih, sent_call hc hs ht hd.1, hg, List.map_cons, List.append_assoc]
    · rfl
    · rw [call_eq_act]
      apply coherent_act hc
    · apply hs'
    · rw [hg, ht', ht]
    · rw [subscribed_call]
      apply hd.2

/-! ### Without an open session -/

/-- Without an open session calls cost no message. -/
theorem sent_calls_of_not_connected (hc : s.toLink.Coherent) (hs : s.state ≠ .connected)
    (cs : List Call) :
  (cs.foldl (call env) s).transport.sent = s.transport.sent
  := by
  induction cs generalizing s with
  | nil => rfl
  | cons c cs ih =>
    have hn : c.act ≠ .event s.generation .opened := by
      cases c with
      | subscribe id => simp [Call.act]
      | unsubscribe id => simp [Call.act]
    rw [List.foldl_cons, call_eq_act, ih, sent_act hc, offers_eq_nil _ hs, taken_nil,
      List.append_nil]
    · intro e
      apply absurd e hn
    · apply coherent_act hc
    · intro h
      obtain ⟨h, -⟩ | ⟨e, -⟩ := connected_act h
      · apply hs h
      · apply hn e

/-- No subscription asks for a session: there is one, or the stream was stopped. -/
def Settled (s : Stream) : Prop :=
  s.state ≠ .disconnected ∨ s.stopped = true

theorem settled_call (env : Environment) (h : s.Settled) (c : Call) :
  (s.call env c).Settled ∧ (s.call env c).transport.connects = s.transport.connects
  := by
  cases c with
  | subscribe id =>
    obtain ⟨-, e⟩ | ⟨-, -, e⟩ | ⟨-, -, -, e⟩ | ⟨-, hs, ht, -⟩ := subscribe_cases env s id
    · rw [Settled, call, e]
      exact ⟨h, rfl⟩
    · rw [Settled, call, e]
      exact ⟨h, Transport.connects_post _ _ _⟩
    · rw [Settled, call, e]
      exact ⟨h, rfl⟩
    · obtain h | h := h
      · apply absurd hs h
      · exact nomatch ht.symm.trans h
  | unsubscribe id =>
    obtain ⟨-, e⟩ | ⟨-, -, e⟩ | ⟨-, -, -, e⟩ | ⟨-, -, -, e⟩ := unsubscribe_cases env s id
    · rw [Settled, call, e]
      exact ⟨h, rfl⟩
    · rw [Settled, call, e]
      exact ⟨h, rfl⟩
    · rw [Settled, call, e]
      exact ⟨h, Transport.connects_post _ _ _⟩
    · rw [Settled, call, e]
      exact ⟨h, rfl⟩

theorem connects_calls (h : s.Settled) (cs : List Call) :
  (cs.foldl (call env) s).transport.connects = s.transport.connects
  := by
  induction cs generalizing s with
  | nil => rfl
  | cons c cs ih =>
    obtain ⟨h', e⟩ := settled_call env h c
    rw [List.foldl_cons, ih h', e]

/-- The first market that is added to a stream without interest asks for a session. -/
theorem ask_subscribe (env : Environment) (hs : s.state = .disconnected) (ht : s.stopped = false)
    {id : MarketId} (hm : id ∉ s.subscribed) :
  (s.subscribe env id).Settled ∧
    (s.subscribe env id).transport.connects = s.transport.connects + 1
  := by
  obtain ⟨h, -⟩ | ⟨-, h, -⟩ | ⟨-, -, h | h, -⟩ | ⟨-, -, -, e⟩ := subscribe_cases env s id
  · apply absurd h hm
  · exact nomatch hs.symm.trans h
  · exact nomatch ht.symm.trans h
  · exact nomatch hs.symm.trans h
  · rw [Settled, e]
    exact ⟨Or.inl (by simp [Link.ask]), Transport.connects_connect _⟩

/-- A synchronisation asks for one session if there is none, the stream was not stopped and a
market is added, and for none otherwise. -/
theorem connects_sync (hc : s.toLink.Coherent) (wanted : IdSet) :
  (s.sync env wanted).2.transport.connects = s.transport.connects +
    if s.state = .disconnected ∧ s.stopped = false ∧ ∃ id ∈ wanted, id ∉ s.subscribed then 1
    else 0
  := by
  rw [toLink_sync]
  by_cases hb : s.Settled
  · rw [connects_calls hb, if_neg]
    · rfl
    · rintro ⟨hs, ht, -⟩
      obtain h | h := hb
      · apply h hs
      · exact nomatch ht.symm.trans h
  · obtain ⟨hs, ht⟩ := not_or.1 hb
    have hs : s.state = .disconnected := not_not.1 hs
    have ht : s.stopped = false := by simpa using ht
    have he : s.subscribed = .empty := hc.idle hs ht
    have hu : (s.subscribed.diff wanted).ids = [] := by
      rw [he]
      rfl
    rw [Changes.calls, Changes.between, hu, List.map_nil, List.nil_append]
    cases h : (wanted.diff s.subscribed).ids with
    | nil =>
      rw [if_neg]
      · rfl
      · rintro ⟨-, -, id, hi⟩
        rw [← IdSet.mem_diff, IdSet.mem_def, h] at hi
        apply List.not_mem_nil hi
    | cons id l =>
      have hm : id ∈ wanted.diff s.subscribed := by
        rw [IdSet.mem_def, h]
        apply List.mem_cons_self
      rw [IdSet.mem_diff] at hm
      obtain ⟨hb', e⟩ := ask_subscribe env hs ht hm.2
      rw [if_pos ⟨hs, ht, id, hm⟩, List.map_cons, List.foldl_cons]
      apply Eq.trans (connects_calls hb' _)
      apply e

/-! ### Synchronisation after a run -/

/-- After every run, as long as an open session takes messages, a synchronisation makes the markets
of interest equal to those that are wanted.  On an open session it sends one message for each
market that differs, first for those that are dropped and then for those that are added, both in
ascending order.  Otherwise it sends nothing, and asks for one session if there is none, the stream
was not stopped and a market is added.  A second synchronisation does nothing. -/
theorem sync_after_run (env : Environment) (as : List Action) (wanted : IdSet)
    (h : (initial.run env as).state = .connected → (initial.run env as).canSend) :
  let s := initial.run env as
  let changes := (s.sync env wanted).1
  let s' := (s.sync env wanted).2
  s'.subscribed = wanted ∧
    (∀ id, id ∈ changes.subscribe ↔ id ∈ wanted ∧ id ∉ s.subscribed) ∧
    (∀ id, id ∈ changes.unsubscribe ↔ id ∈ s.subscribed ∧ id ∉ wanted) ∧
    (s.state = .connected →
      s'.transport.sent = s.transport.sent ++
        changes.unsubscribe.ids.map (fun id => ⟨s.generation, unsubscribeMessage env id⟩) ++
        changes.subscribe.ids.map (fun id => ⟨s.generation, subscribeMessage env id⟩)) ∧
    (s.state = .connected →
      s'.transport.sent.length = s.transport.sent.length +
        (symmDiff wanted.toFinset s.subscribed.toFinset).card) ∧
    (s.state ≠ .connected → s'.transport.sent = s.transport.sent) ∧
    (s'.transport.connects = s.transport.connects +
      if s.state = .disconnected ∧ s.stopped = false ∧ ∃ id ∈ wanted, id ∉ s.subscribed then 1
      else 0) ∧
    s'.sync env wanted = (⟨.empty, .empty⟩, s')
  := by
  intro s changes s'
  have hc : s.toLink.Coherent := coherent_run env as
  have hch : changes = Changes.between wanted s.subscribed := changes_sync wanted
  have hsent (hs : s.state = .connected) : s'.transport.sent = s.transport.sent ++
      changes.calls.map fun c => ⟨s.generation, c.message env⟩ := by
    have ht : s.transport.accepts s.generation := by
      have hcan : s.canSend := h hs
      rw [canSend, show s.handle = some s.generation from hc.handle_connected hs] at hcan
      apply hcan
    rw [hch]
    apply Eq.trans (congrArg (fun l : Link => l.transport.sent) (toLink_sync wanted))
    apply sent_calls hc hs ht
    apply IdSet.allDue_calls
  and_intros
  · apply subscribed_sync
  · intro id
    rw [hch]
    apply IdSet.mem_diff
  · intro id
    rw [hch]
    apply IdSet.mem_diff
  · intro hs
    rw [hsent hs, Changes.calls, List.map_append, List.map_map, List.map_map, ← List.append_assoc]
    rfl
  · intro hs
    rw [hsent hs, List.length_append, List.length_map, hch, ← IdSet.size_between, Changes.calls,
      List.length_append, List.length_map, List.length_map, Nat.add_comm (IdSet.ids _).length]
    rfl
  · intro hs
    apply Eq.trans (congrArg (fun l : Link => l.transport.sent) (toLink_sync wanted))
    apply sent_calls_of_not_connected hc hs
  · apply connects_sync hc
  · apply sync_self
    apply subscribed_sync

/-- On an open session one market is exchanged for another. -/
theorem sync_replaces_market :
  let s := initial.run .standard [.act (.subscribe ⟨"ADA/EUR"⟩), .act (.event 1 .opened)]
  let wanted := IdSet.empty.insert ⟨"BTC/EUR"⟩
  s.state = .connected ∧ s.canSend ∧ (s.sync .standard wanted).2.subscribed = wanted
  := by
  intro s wanted
  have hs : s.state = .connected := rfl
  have hcan : s.canSend := rfl
  obtain ⟨h, -⟩ := sync_after_run .standard _ wanted fun _ => hcan
  exact ⟨hs, hcan, h⟩

end Stream

end QuoteFeed
