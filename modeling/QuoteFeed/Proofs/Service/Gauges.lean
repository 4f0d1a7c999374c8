import QuoteFeed.Proofs.Service.Interest
import QuoteFeed.Proofs.Service.Moves
import QuoteFeed.Proofs.Stream.Gauges

/-!
# The gauges of the service

As long as the markets of interest change by synchronisations alone, and by the ends of sessions and
stops, which forget them, the gauges agree with the connection after every action: the one shows its
state and the other the number of markets of interest (`gauges_after_run`).  This takes a queue for
the events of a session, as a synchronisation that fails for want of one sets no gauge.
-/

namespace QuoteFeed.Service

variable {env : Environment} {s : Service}

/-- The action makes no call on the markets of interest outside of a synchronisation. -/
def Action.synchronised : Action → Bool
  | .connection a => a.call?.isNone
  | _ => true

theorem agree_move {t t' : Stream} (h : Move env t t') (ha : t.dials.Agree) :
  t'.dials.Agree
  := by
  cases h with
  | start => exact (Stream.turns_start env t).agree ha
  | stop => exact (Stream.turns_stop env t).agree ha
  | ping generation due =>
    rw [Stream.dials_pingTick]
    exact ha
  | sync wanted => exact Stream.agree_sync ha wanted
  | beginRefresh =>
    rw [Stream.dials_withDesk t (Desk.gauges_beginRefresh t.toDesk)]
    exact ha
  | endRefresh answer =>
    rw [Stream.dials_withDesk t (Desk.gauges_endRefresh env t.toDesk answer)]
    exact ha
  | releaseRefresh => exact ha
  | note n => exact ha

theorem agree_moves {t t' : Stream} (h : Moves env t t') (ha : t.dials.Agree) :
  t'.dials.Agree
  := by
  induction h with
  | refl => exact ha
  | tail _ hm ih => exact agree_move hm ih

theorem agree_step (h : s.dials.Agree) {a : Action} (ha : a.synchronised) :
  (s.step env a).dials.Agree
  := by
  cases a with
  | connection a => exact (Stream.turns_act (Option.isNone_iff_eq_none.1 ha)).agree h
  | purge => exact h
  | elapse d => exact h
  | _ => exact agree_moves (moves_step env rfl) h

theorem agree_run (env : Environment) (markets : List Market) (as : List Action)
    (ha : ∀ a ∈ as, a.synchronised) :
  ((initial env markets).run env as).dials.Agree
  := by
  induction as using List.reverseRecOn with
  | nil => exact ⟨rfl, rfl⟩
  | append_singleton as a ih =>
    rw [List.forall_mem_append, List.forall_mem_singleton] at ha
    rw [run_concat]
    exact agree_step (ih ha.1) ha.2

/-- If there is a queue for the events of a session, every run in which the markets of interest are
called for by synchronisations alone succeeds.  After it, in whatever state the connection is, the
gauge of the connection shows its state, and the gauge of the subscriptions shows how many markets
are subscribed.  A gauge that was never set shows zero. -/
theorem gauges_after_run (env : Environment) (hq : IsQueue env.settings.stream.eventBuffer)
    (markets : List Market) (as : List Action) (ha : ∀ a ∈ as, a.synchronised) :
  ∃ s, (initial env markets).run? env as = some s ∧
    let m := s.report.metrics
    (m.connectionState = 0 ↔ s.state = .disconnected) ∧
      (m.connectionState = 1 ↔ s.state = .connecting) ∧
      (m.connectionState = 2 ↔ s.state = .connected) ∧
      m.subscriptions = s.subscribed.size
  := by
  use (initial env markets).run env as, run?_eq_some hq as
  have h := agree_run env markets as ha
  generalize (initial env markets).run env as = s at h
  intro m
  have hstate : m.connectionState = s.state.gauge := h.state
  refine ⟨?_, ?_, ?_, h.count⟩
  all_goals
    rw [hstate]
    cases s.state
    all_goals simp [ConnectionState.gauge]

/-- A run with a stop after which markets are held, and another stop, which writes to no gauge. -/
def heldRun : List Action :=
  let one := IdSet.empty.insert ⟨"BTC-EUR"⟩
  let two := one.insert ⟨"ETH-EUR"⟩
  [.start, .connection (.event 1 .opened), .sync two, .connection .stop, .sync one,
    .connection .stop]

/-- One market is held at its end, and shown. -/
theorem gauges_after_held_run :
  IsQueue Environment.standard.settings.stream.eventBuffer ∧ (∀ a ∈ heldRun, a.synchronised) ∧
    ∃ s, standard.run? .standard heldRun = some s ∧ s.stopped ∧ s.state = .disconnected ∧
      s.report.metrics.connectionState = 0 ∧ s.report.metrics.subscriptions = 1
  := by
  have hq : IsQueue Environment.standard.settings.stream.eventBuffer := by decide +kernel
  have ha : ∀ a ∈ heldRun, a.synchronised := by decide +kernel
  have hd : (standard.run .standard heldRun).state = .disconnected := by decide +kernel
  have hn : (standard.run .standard heldRun).subscribed.size = 1 := by decide +kernel
  obtain ⟨s, hs, hzero, -, -, hcount⟩ := gauges_after_run .standard hq _ heldRun ha
  obtain rfl := eq_run_of_run? hs
  exact ⟨hq, ha, _, hs, by decide +kernel, hd, hzero.2 hd, hcount.trans hn⟩

end QuoteFeed.Service
