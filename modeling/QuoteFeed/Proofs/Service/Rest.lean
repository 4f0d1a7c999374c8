import QuoteFeed.Proofs.Service.Connection
import QuoteFeed.Proofs.Stream.Stale

/-!
# A service at rest

A service that was stopped holds neither a timer nor a session.  Until it is started again queries
may come in, old sessions may report, and the deadlines of its timers may pass: no session is asked
for, nothing is sent or fetched, and no quote arrives (`rest_after_stop`).
-/

namespace QuoteFeed.Service

/-- What can happen to a service after it was stopped. -/
inductive Later where
  | quotations (quote : String) (bases : List String)
  | releaseIdle
  | stop
  /-- A session reports an event. -/
  | event (session : Nat) (e : SessionEvent)
  /-- The ping of a generation is carried out, which was due at `due`. -/
  | ping (generation due : Nat)
  /-- A deadline passes.  The timer that is due then acts, if it is still there. -/
  | deadline (due : Nat)
  /-- Time passes, and every timer acts when it is due. -/
  | pass (last : Nat)

variable (env : Environment) (s : Service)

/-- The service after something happened. -/
def later : Later → Service
  | .quotations quote bases => (s.quotations env quote bases).2
  | .releaseIdle => (s.releaseIdle env).2
  | .stop => s.stop env
  | .event session e => s.onStream (·.deliver env session e)
  | .ping generation due => s.onStream (·.pingTick env generation due)
  | .deadline due => s.fire env due
  | .pass last => s.advance env last

/-- The service neither has timers nor a session, nor may it ask for one. -/
structure AtRest : Prop where
  coherent : s.toLink.Coherent
  stopped : s.stopped
  running : s.running = false
  refreshDue : s.refreshDue = none
  sweepDue : s.sweepDue = none

/-- No session was asked for, nothing was sent or fetched, and no quote arrived. -/
structure Undisturbed (s s' : Service) : Prop where
  connects_eq : s'.transport.connects = s.transport.connects
  sent_eq : s'.transport.sent = s.transport.sent
  source_eq : s'.source = s.source
  cache_eq : s'.cache = s.cache

variable {env s} {s' : Service}

theorem Undisturbed.refl (s : Service) :
  s.Undisturbed s
  := ⟨rfl, rfl, rfl, rfl⟩

theorem Undisturbed.trans {s'' : Service} (h : s.Undisturbed s') (h' : s'.Undisturbed s'') :
  s.Undisturbed s''
  := ⟨h'.1.trans h.1, h'.2.trans h.2, h'.3.trans h.3, h'.4.trans h.4⟩

theorem Undisturbed.note (h : s.Undisturbed s') (n : Note) :
  s.Undisturbed (s'.note n)
  := ⟨h.1, h.2, h.3, h.4⟩

theorem AtRest.note (h : s.AtRest) (n : Note) :
  (s.note n).AtRest
  := ⟨h.coherent, h.stopped, h.running, h.refreshDue, h.sweepDue⟩

/-- A service is at rest once it was stopped. -/
theorem atRest_stop (hc : s.toLink.Coherent) :
  (s.stop env).AtRest
  := by
  have hs : (s.toStream.stop env).stopped := by
    obtain ⟨-, -, e⟩ | ⟨-, e⟩ := Stream.stop_cases env s.toStream
    · rw [e]
      rfl
    · rw [e]
      rfl
  have h : ({ s with running := false, refreshDue := none, sweepDue := none }.onStream
      (·.stop env)).AtRest :=
    ⟨Stream.coherent_stop hc, hs, rfl, rfl, rfl⟩
  rw [stop]
  split
  · apply h.note
  · apply h

namespace AtRest

variable (h : s.AtRest)

include h

theorem state_eq :
  s.state = .disconnected
  := h.coherent.stopped h.stopped

theorem not_current (n : Nat) :
  ¬ s.isCurrent n
  := by
  rw [Stream.isCurrent_iff]
  intro hc
  exact hc.2 h.state_eq

/-! ### Timers -/

theorem pinger_eq :
  s.pinger = none
  := by
  apply h.coherent.pinger_none
  rw [h.state_eq]
  simp

/-- No timer is there that could act. -/
theorem fire_eq (due : Nat) :
  s.fire env due = s.atTime (max s.now due)
  := by
  have hr : (s.atTime (max s.now due)).refreshDue ≠ some due := by
    apply ne_of_eq_of_ne h.refreshDue
    simp
  have hw : (s.atTime (max s.now due)).sweepDue ≠ some due := by
    apply ne_of_eq_of_ne h.sweepDue
    simp
  have hp : (s.atTime (max s.now due)).pinger = none := h.pinger_eq
  rw [fire, if_neg hr, if_neg hw, pingTick, onStream, Stream.firePinger, hp]

theorem advance_eq (last : Nat) :
  s.advance env last = s.atTime (max s.now last)
  := by
  have hd : s.nextDue? = none := by
    rw [nextDue?, h.refreshDue, h.sweepDue, Stream.pingDue, h.pinger_eq]
    rfl
  rw [advance]
  split
  · rfl
  · rename_i due e
    rw [hd] at e
    contradiction

theorem atTime (now : Nat) :
  (s.atTime now).AtRest
  := ⟨h.coherent, h.stopped, h.running, h.refreshDue, h.sweepDue⟩

/-! ### Calls -/

/-- A service at rest has been stopped already. -/
theorem stop_eq :
  s.stop env = s
  := by
  have hs : s.toStream.stop env = s.toStream := by
    have hm : { s.toStream with stopped := true } = s.toStream := by
      rw [← h.stopped]
    rw [Stream.stop, hm]
    apply if_pos
    rw [h.state_eq, show s.handle = none from h.coherent.handle_none h.state_eq]
    simp
  rw [Service.stop, h.running, if_neg Bool.false_ne_true, onStream, hs]
  obtain ⟨stream, source, demand, running, refreshDue, sweepDue, calls⟩ := s
  obtain rfl : running = false := h.running
  obtain rfl : refreshDue = none := h.refreshDue
  obtain rfl : sweepDue = none := h.sweepDue
  rfl

/-- Demand that arrives is remembered, and leads to nothing else. -/
theorem syncDemand (env : Environment) (ms : List MarketId) :
  (s.syncDemand env ms).2.AtRest ∧ s.Undisturbed (s.syncDemand env ms).2
  := by
  obtain ⟨cs, e⟩ : ∃ cs : List Call,
      (s.syncDemand env ms).2.toLink = (cs.foldl (Stream.call env) s.toStream).toLink :=
    ⟨_, Stream.toLink_sync _⟩
  have hc : s.state ≠ .connected := by
    rw [h.state_eq]
    simp
  constructor
  · refine ⟨?_, ?_, h.running, h.refreshDue, h.sweepDue⟩
    · rw [e, Stream.run_calls]
      exact Stream.toLink_run_induction _ h.coherent fun _ a _ hc => Stream.coherent_act hc a
    · rw [e]
      exact (Stream.stopped_calls cs).trans h.stopped
  · refine ⟨?_, ?_, rfl, (internalRun_syncDemand env s ms).keeps.2⟩
    · rw [e]
      apply Stream.connects_calls (Or.inr h.stopped)
    · rw [e]
      apply Stream.sent_calls_of_not_connected h.coherent hc

theorem quotations (env : Environment) (quote : String) (bases : List String) :
  (s.quotations env quote bases).2.AtRest ∧ s.Undisturbed (s.quotations env quote bases).2
  := by
  rw [Service.quotations]
  dsimp only
  split
  · exact ⟨h.note _, (Undisturbed.refl s).note _⟩
  · apply h.syncDemand

theorem releaseIdle (env : Environment) :
  (s.releaseIdle env).2.AtRest ∧ s.Undisturbed (s.releaseIdle env).2
  := by
  obtain ⟨hr, hu⟩ := h.syncDemand env []
  rw [Service.releaseIdle]
  dsimp only
  split
  · exact ⟨hr, hu⟩
  · exact ⟨hr.note _, hu.note _⟩

/-- What a session reports has no consequences. -/
theorem deliver (env : Environment) (n : Nat) (e : SessionEvent) :
  (s.onStream (·.deliver env n e)).AtRest ∧ s.Undisturbed (s.onStream (·.deliver env n e))
  := by
  have ha := Stream.alike_deliver_stale env (h.not_current n) e
  constructor
  · exact ⟨Stream.coherent_deliver h.coherent n e, ha.stopped_eq.trans h.stopped, h.running,
      h.refreshDue, h.sweepDue⟩
  · refine ⟨ha.connects_eq, ha.sent_eq, rfl, ?_⟩
    apply congrArg Desk.cache ha.books_eq

/-- Whatever happens to a service at rest leaves it at rest. -/
theorem later (env : Environment) (l : Later) :
  (s.later env l).AtRest ∧ s.Undisturbed (s.later env l)
  := by
  cases l with
  | quotations quote bases => apply h.quotations
  | releaseIdle => apply h.releaseIdle
  | stop =>
    rw [Service.later, h.stop_eq]
    exact ⟨h, Undisturbed.refl s⟩
  | event n e => apply h.deliver
  | ping n due =>
    rw [Service.later, onStream, Stream.pingTick_stale h.coherent (h.not_current n)]
    exact ⟨h, Undisturbed.refl s⟩
  | deadline due =>
    rw [Service.later, h.fire_eq]
    exact ⟨h.atTime _, rfl, rfl, rfl, rfl⟩
  | pass last =>
    rw [Service.later, h.advance_eq]
    exact ⟨h.atTime _, rfl, rfl, rfl, rfl⟩

theorem laters (env : Environment) (ls : List Later) :
  (ls.foldl (Service.later env) s).AtRest ∧ s.Undisturbed (ls.foldl (Service.later env) s)
  := by
  induction ls generalizing s with
  | nil => exact ⟨h, Undisturbed.refl s⟩
  | cons l ls ih =>
    obtain ⟨hr, hu⟩ := h.later env l
    obtain ⟨hr', hu'⟩ := ih hr
    exact ⟨hr', hu.trans hu'⟩

end AtRest

/-- After a stop that ends any run, and until the next start, no session is asked for, nothing is
sent or fetched, no quote arrives, and the link stays disconnected.  No timer acts any more, and
another stop changes nothing. -/
theorem rest_after_stop (env : Environment) (markets : List Market) (as : List Action)
    (ls : List Later) :
  let s := ((initial env markets).run env as).stop env
  let s' := ls.foldl (later env) s
  s'.transport.connects = s.transport.connects ∧ s'.transport.sent = s.transport.sent ∧
    s'.source.fetches = s.source.fetches ∧ s'.cache = s.cache ∧ s'.state = .disconnected ∧
    (∀ due, s'.fire env due = s'.atTime (max s'.now due)) ∧
    (∀ last, s'.advance env last = s'.atTime (max s'.now last)) ∧
    s'.stop env = s'
  := by
  intro s s'
  have h : s.AtRest := atRest_stop (coherent_run env markets as)
  obtain ⟨hr, hu⟩ := h.laters env ls
  exact ⟨hu.connects_eq, hu.sent_eq, congrArg Source.fetches hu.source_eq, hu.cache_eq, hr.state_eq,
    hr.fire_eq, hr.advance_eq, hr.stop_eq⟩

end QuoteFeed.Service
