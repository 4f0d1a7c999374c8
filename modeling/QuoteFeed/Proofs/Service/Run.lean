import QuoteFeed.Proofs.Stream.Run
import QuoteFeed.Service.Schedule

/-!
# Runs of the service

What can happen to a service (`Service.Action`): calls of its users, refreshes of its catalog,
everything that can happen to its connection, the acts of its timers, and the passing of time,
which never goes back.  A run is a list of such actions from the service before its start on, one
after the other, and it fails where a session finds no queue for its events (`run?`).  Time that
passes on a schedule is a run as well (`advance_eq_run`).
-/

namespace QuoteFeed.Service

/-- What happens to a service. -/
inductive Action where
  /-- Something happens to the connection. -/
  | connection (a : Stream.Act)
  | start
  | stop
  | quotations (quote : String) (bases : List String)
  | releaseIdle
  /-- The subscriptions are made equal to a wanted set. -/
  | sync (wanted : IdSet)
  | refresh
  | beginRefresh
  | finishRefresh
  | abortRefresh
  /-- The source of the catalog changes. -/
  | source (s : Source)
  /-- Expired quotes are removed. -/
  | purge
  /-- Some time passes. -/
  | elapse (d : Nat)
  /-- The timer of the catalog acts. -/
  | refreshTimer
  /-- The timer of idle markets acts, which was due at `due`. -/
  | sweepTimer (due : Nat)
  /-- The timer of the open session acts, which was due at `due`. -/
  | pingTimer (due : Nat)

variable (env : Environment) (s : Service)

/-- The service after an action. -/
def step : Action → Service
  | .connection a => s.onStream (·.act env a)
  | .start => s.start env
  | .stop => s.stop env
  | .quotations quote bases => (s.quotations env quote bases).2
  | .releaseIdle => (s.releaseIdle env).2
  | .sync wanted => (s.sync env wanted).2
  | .refresh => (s.refresh env).2
  | .beginRefresh => s.beginRefresh
  | .finishRefresh => (s.finishRefresh env).2
  | .abortRefresh => s.abortRefresh
  | .source source => { s with source }
  | .purge => { s with cache := s.cache.purge s.now }
  | .elapse d => s.atTime (s.now + d)
  | .refreshTimer => s.refreshTick env
  | .sweepTimer due => s.sweepTick env due
  | .pingTimer due => s.pingTick env due

/-- The service after actions. -/
def run (as : List Action) : Service :=
  as.foldl (step env) s

/-- The service after an action, unless that fails for want of a queue. -/
def step? (a : Action) : Option Service :=
  if Stream.Stalls env s.toStream (s.step env a).toStream then none else some (s.step env a)

/-- The service after actions, unless one of them fails. -/
def run? (as : List Action) : Option Service :=
  as.foldlM (step? env) s

/-- What is recorded of the actions of a run, each before it happens. -/
def log {α : Type} (record : Service → Action → List α) (s : Service) : List Action → List α
  | [] => []
  | a :: as => record s a ++ (s.step env a).log record as

variable {env s}

theorem run_append (as bs : List Action) :
  s.run env (as ++ bs) = (s.run env as).run env bs
  := List.foldl_append

theorem run_concat (as : List Action) (a : Action) :
  s.run env (as ++ [a]) = (s.run env as).step env a
  := by
  rw [run_append]
  rfl

theorem run?_concat (as : List Action) (a : Action) :
  s.run? env (as ++ [a]) = (s.run? env as).bind (step? env · a)
  := by
  rw [run?, List.foldlM_append]
  simp only [List.foldlM_cons, List.foldlM_nil, Option.bind_eq_bind, Option.pure_def,
    Option.bind_fun_some]
  rfl

theorem step?_eq_some_iff {a : Action} {s' : Service} :
  s.step? env a = some s' ↔
    ¬ Stream.Stalls env s.toStream (s.step env a).toStream ∧ s.step env a = s'
  := by
  rw [step?, Option.ite_none_left_eq_some, Option.some.injEq]

/-- Where there is a queue, no action fails. -/
theorem step?_eq_some (hq : IsQueue env.settings.stream.eventBuffer) (a : Action) :
  s.step? env a = some (s.step env a)
  := if_neg fun h => h.2 hq

/-- Nor does a run. -/
theorem run?_eq_some (hq : IsQueue env.settings.stream.eventBuffer) (as : List Action) :
  s.run? env as = some (s.run env as)
  := by
  have h : step? env = fun s a => some (s.step env a) := by
    funext s a
    apply step?_eq_some hq
  rw [run?, h]
  apply List.foldlM_pure

theorem eq_run_of_run? {as : List Action} {s' : Service} (h : s.run? env as = some s') :
  s' = s.run env as
  := by
  induction as generalizing s with
  | nil => exact (Option.some.inj h).symm
  | cons a as ih =>
    rw [run?, List.foldlM_cons] at h
    obtain ⟨t, ht, h⟩ := Option.bind_eq_some_iff.1 h
    obtain ⟨-, rfl⟩ := step?_eq_some_iff.1 ht
    apply ih h

/-- In a run that does not fail, sessions are asked for only if there is a queue. -/
theorem isQueue_of_run? {markets : List Market} {as : List Action}
    (h : (initial env markets).run? env as = some s) (hs : 0 < s.generation) :
  IsQueue env.settings.stream.eventBuffer
  := by
  induction as using List.reverseRecOn generalizing s with
  | nil =>
    obtain rfl := Option.some.inj h
    contradiction
  | append_singleton as a ih =>
    rw [run?_concat] at h
    obtain ⟨t, ht, h⟩ := Option.bind_eq_some_iff.1 h
    obtain ⟨hn, rfl⟩ := step?_eq_some_iff.1 h
    by_contra hq
    -- no session was asked for before, and so this action stalls
    apply hn
    use Nat.lt_of_le_of_lt (Nat.le_of_not_lt fun hp => hq (ih ht hp)) hs, hq

theorem log_concat {α : Type} (record : Service → Action → List α) (as : List Action)
    (a : Action) :
  s.log env record (as ++ [a]) = s.log env record as ++ record (s.run env as) a
  := by
  induction as generalizing s with
  | nil => simp [log, run]
  | cons b as ih => rw [List.cons_append, log, ih, log, List.append_assoc, run, run,
      List.foldl_cons]

/-! ### Demand and time -/

/-- Neither the demand nor the time changes. -/
def KeepsDemand (s s' : Service) : Prop :=
  s'.demand = s.demand ∧ s'.now = s.now

variable (env s)

theorem keepsDemand_connection (a : Stream.Act) :
  s.KeepsDemand (s.onStream (·.act env a))
  := by
  constructor
  · rfl
  · apply congrArg Prod.fst (Stream.setting_act env s.toStream a)

theorem keepsDemand_start :
  s.KeepsDemand (s.start env)
  := by
  rw [start]
  split
  · exact ⟨rfl, rfl⟩
  · constructor
    · rfl
    · apply congrArg Desk.now (Stream.books_start env s.toStream)

theorem keepsDemand_stop :
  s.KeepsDemand (s.stop env)
  := by
  have h : (s.toStream.stop env).now = s.now := by
    apply congrArg Desk.now (Stream.books_stop env s.toStream)
  rw [stop]
  split
  · exact ⟨rfl, h⟩
  · exact ⟨rfl, h⟩

theorem keepsDemand_sync (wanted : IdSet) :
  s.KeepsDemand (s.sync env wanted).2
  := by
  constructor
  · rfl
  · apply congrArg Desk.now (Stream.books_sync env s.toStream wanted)

theorem keepsDemand_refresh :
  s.KeepsDemand (s.refresh env).2
  := by
  rw [refresh]
  dsimp only
  split
  · constructor
    · rfl
    · apply Eq.trans (Desk.sameQuotes_endRefresh env _ _).1
      apply (Desk.sameQuotes_beginRefresh _).1
  · constructor
    · rfl
    · apply (Desk.sameQuotes_beginRefresh _).1

theorem snd_refreshCycle :
  (s.refreshCycle env).2 = (s.refresh env).2
  := by
  rw [refreshCycle]
  split
  · rename_i e; rw [e]
  · rename_i e; rw [e]
  · rename_i e; rw [e]

theorem keepsDemand_refreshTick :
  s.KeepsDemand (s.refreshTick env)
  := by
  have h := keepsDemand_refresh env s
  rw [← snd_refreshCycle] at h
  exact h

theorem keepsDemand_beginRefresh :
  s.KeepsDemand s.beginRefresh
  := by
  rw [beginRefresh]
  dsimp only
  split
  · exact ⟨rfl, (Desk.sameQuotes_beginRefresh _).1⟩
  · exact ⟨rfl, (Desk.sameQuotes_beginRefresh _).1⟩

theorem sameQuotes_settleCalls (calls : List RefreshCall) (d : Desk) :
  d.SameQuotes (settleCalls env calls d).2
  := by
  induction calls with
  | nil => apply Desk.SameQuotes.refl
  | cons c calls ih =>
    cases c with
    | done outcome => apply ih
    | waiting answer =>
      apply ih.trans
      apply Desk.sameQuotes_endRefresh

theorem keepsDemand_finishRefresh :
  s.KeepsDemand (s.finishRefresh env).2
  := by
  have h := (sameQuotes_settleCalls env s.calls s.toDesk).1
  rw [finishRefresh]
  dsimp only
  split
  · exact ⟨rfl, h⟩
  · exact ⟨rfl, h⟩

theorem keepsDemand_abortRefresh :
  s.KeepsDemand s.abortRefresh
  := by
  rw [abortRefresh]
  split
  · exact ⟨rfl, rfl⟩
  · exact ⟨rfl, rfl⟩
  · exact ⟨rfl, rfl⟩

theorem keepsDemand_pingTick (due : Nat) :
  s.KeepsDemand (s.pingTick env due)
  := by
  constructor
  · rfl
  · change (s.toStream.firePinger env due).now = s.now
    rw [Stream.firePinger]
    split
    · rfl
    · apply congrArg Prod.fst (Stream.setting_pingTick env s.toStream _ due)

/-! ### Time on a schedule -/

/-- A timer that acts when it is due is a run: time passes until then, and the timer acts. -/
theorem fire_eq_run (env : Environment) (s : Service) (due : Nat) :
  ∃ as, s.fire env due = s.run env as
  := by
  have ht : s.atTime (max s.now due) = s.step env (.elapse (due - s.now)) := by
    rw [step, show s.now + (due - s.now) = max s.now due by omega]
  rw [fire, ht]
  split
  · use [.elapse (due - s.now), .refreshTimer]
    rfl
  · split
    · use [.elapse (due - s.now), .sweepTimer due]
      rfl
    · use [.elapse (due - s.now), .pingTimer due]
      rfl

/-- Time that passes while every timer acts when it is due is a run. -/
theorem advance_eq_run (env : Environment) (last : Nat) (s : Service) :
  ∃ as, s.advance env last = s.run env as
  := by
  have ht (s : Service) : s.atTime (max s.now last) = s.run env [.elapse (last - s.now)] := by
    rw [run, List.foldl_cons, List.foldl_nil, step,
      show s.now + (last - s.now) = max s.now last by omega]
  induction s using advance.induct env last with
  | case1 s hd =>
    use [.elapse (last - s.now)]
    rw [advance]
    split
    · apply ht
    · rename_i due h
      exact nomatch hd.symm.trans h
  | case2 s due hd hl ih =>
    obtain ⟨as, ha⟩ := fire_eq_run env s due
    obtain ⟨bs, hb⟩ := ih
    use as ++ bs
    rw [run_append, ← ha, ← hb]
    rw [advance]
    split
    · rename_i h
      exact nomatch hd.symm.trans h
    · rename_i due' h
      obtain rfl := Option.some.inj (hd.symm.trans h)
      rw [dif_pos hl]
  | case3 s due hd hl =>
    use [.elapse (last - s.now)]
    rw [advance]
    split
    · rename_i h
      exact nomatch hd.symm.trans h
    · rename_i due' h
      obtain rfl := Option.some.inj (hd.symm.trans h)
      rw [dif_neg hl]
      apply ht

end QuoteFeed.Service
