import QuoteFeed.Proofs.Service.Connection
import QuoteFeed.Proofs.Stream.Timely

/-!
# Runs of the service on time

In a run on time (`Service.Timely`) time does not pass beyond the next act of a timer, and every
timer acts when it is due.  The schedule makes only such runs (`timely_advance`), unless a timer is
overdue already (`Service.OnTime`).
-/

namespace QuoteFeed.Service

/-- The action comes at its time: no timer is due before the time that passes is over, and a timer
that is held acts when it is due. -/
def Prompt (s : Service) : Action → Prop
  | .elapse d => ∀ due ∈ s.nextDue?, s.now + d ≤ due
  | .refreshTimer => s.refreshDue = some s.now
  | .sweepTimer due => s.sweepDue = some due ∧ due = s.now
  | .pingTimer due => s.pingDue = some due ∧ due = s.now
  | .connection a => s.toStream.Prompt (.act a)
  | .start | .stop | .quotations _ _ | .releaseIdle | .sync _ | .refresh | .beginRefresh
  | .finishRefresh | .abortRefresh | .source _ | .purge => True

instance (s : Service) (a : Action) : Decidable (s.Prompt a) :=
  match a with
  | .elapse d => inferInstanceAs (Decidable (∀ due ∈ s.nextDue?, s.now + d ≤ due))
  | .refreshTimer => inferInstanceAs (Decidable (s.refreshDue = some s.now))
  | .sweepTimer due => inferInstanceAs (Decidable (s.sweepDue = some due ∧ due = s.now))
  | .pingTimer due => inferInstanceAs (Decidable (s.pingDue = some due ∧ due = s.now))
  | .connection a => inferInstanceAs (Decidable (s.toStream.Prompt (.act a)))
  | .start | .stop | .quotations _ _ | .releaseIdle | .sync _ | .refresh | .beginRefresh
  | .finishRefresh | .abortRefresh | .source _ | .purge => inferInstanceAs (Decidable True)

variable (env : Environment)

/-- Every action of the run comes at its time. -/
def Timely (s : Service) : List Action → Prop
  | [] => True
  | a :: as => s.Prompt a ∧ (s.step env a).Timely as

instance decidableTimely (s : Service) (as : List Action) : Decidable (s.Timely env as) :=
  match as with
  | [] => inferInstanceAs (Decidable True)
  | a :: as =>
    have := decidableTimely (s.step env a) as
    inferInstanceAs (Decidable (s.Prompt a ∧ (s.step env a).Timely env as))

variable {env} {s : Service}

theorem timely_append {as bs : List Action} :
  s.Timely env (as ++ bs) ↔ s.Timely env as ∧ (s.run env as).Timely env bs
  := by
  induction as generalizing s with
  | nil => simp [Timely, run]
  | cons a as ih => rw [List.cons_append, Timely, ih, Timely, and_assoc, run, run, List.foldl_cons]

theorem timely_concat {as : List Action} {a : Action} :
  s.Timely env (as ++ [a]) ↔ s.Timely env as ∧ (s.run env as).Prompt a
  := by
  rw [timely_append, Timely, Timely, and_true]

/-! ### The schedule is on time -/

/-- Nothing is due before a time if no timer is. -/
theorem forall_nextDue {t : Nat} :
  (∀ due ∈ s.nextDue?, t ≤ due) ↔
    (∀ due ∈ s.refreshDue, t ≤ due) ∧ (∀ due ∈ s.sweepDue, t ≤ due) ∧
      ∀ due ∈ s.pingDue, t ≤ due
  := by
  have both {a b : Option Nat} :
      (∀ due ∈ earlier a b, t ≤ due) ↔ (∀ due ∈ a, t ≤ due) ∧ ∀ due ∈ b, t ≤ due := by
    cases a with
    | none => simp [earlier]
    | some a =>
      cases b with
      | none => simp [earlier]
      | some b => simp [earlier]
  rw [nextDue?, both, both]

/-- No timer is overdue. -/
def OnTime (s : Service) : Prop :=
  ∀ due ∈ s.nextDue?, s.now ≤ due

theorem onTime_refreshTick (h : s.OnTime) :
  (s.refreshTick env).OnTime
  := by
  obtain ⟨-, hs, hp⟩ := forall_nextDue.1 h
  obtain ⟨e₁, e₂⟩ := refreshTick_dues env s
  rw [OnTime, forall_nextDue, (keepsDemand_refreshTick env s).2, e₁, Stream.pingDue, e₂]
  exact ⟨fun due hd => Nat.le_of_lt (lt_refreshDue env s hd), hs, hp⟩

theorem onTime_sweepTick (h : s.OnTime) :
  (s.sweepTick env s.now).OnTime
  := by
  obtain ⟨hr, -, hp⟩ := forall_nextDue.1 h
  obtain ⟨e₁, e₂⟩ := sweepTick_dues env s s.now
  have hn : (s.sweepTick env s.now).now = s.now := (internalRun_releaseIdle env s).keeps.1
  rw [OnTime, forall_nextDue, hn, e₁, Stream.pingDue, e₂]
  refine ⟨hr, ?_, hp⟩
  rintro due hd
  obtain rfl := Option.some.inj hd
  apply Nat.le_of_lt
  apply Clock.lt_nextTick (Nat.le_refl _)
  apply Nat.le_max_right

theorem onTime_pingTick (h : s.OnTime) (hd : s.pingDue = some s.now) :
  (s.pingTick env s.now).OnTime
  := by
  obtain ⟨hr, hs, -⟩ := forall_nextDue.1 h
  have hp : (s.pingTick env s.now).pingDue = _ := Stream.pingDue_firePinger env hd
  rw [OnTime, forall_nextDue, (keepsDemand_pingTick env s s.now).2, hp]
  refine ⟨hr, hs, ?_⟩
  rintro due hd
  obtain rfl := Option.some.inj hd
  apply Nat.le_of_lt
  apply Clock.lt_nextTick (Nat.le_refl _)
  apply Nat.le_max_right

/-- The act of the timer that is due at a time. -/
def timerAct (s : Service) (due : Nat) : Action :=
  if s.refreshDue = some due then .refreshTimer
  else if s.sweepDue = some due then .sweepTimer due
  else .pingTimer due

/-- When a timer acts that is due first, it acts at its time, and no timer is overdue afterwards. -/
theorem prompt_timerAct (env : Environment) (h : s.OnTime) (hd : s.nextDue? = some s.now) :
  s.Prompt (s.timerAct s.now) ∧ (s.step env (s.timerAct s.now)).OnTime
  := by
  rw [timerAct]
  split
  · rename_i hr
    exact ⟨hr, onTime_refreshTick h⟩
  · rename_i hr
    split
    · rename_i hs
      exact ⟨⟨hs, rfl⟩, onTime_sweepTick h⟩
    · rename_i hs
      have hp : s.pingDue = some s.now := by
        obtain e | e | e := nextDue_cases hd
        · apply absurd e hr
        · apply absurd e hs
        · apply e
      exact ⟨⟨hp, rfl⟩, onTime_pingTick h hp⟩

/-- Time that passes at most until the next act of a timer passes on time. -/
theorem timely_elapse (env : Environment) (h : s.OnTime) {t : Nat}
    (ht : ∀ due ∈ s.nextDue?, t ≤ due) :
  s.run env [.elapse (t - s.now)] = s.atTime (max s.now t) ∧
    s.Timely env [.elapse (t - s.now)] ∧ (s.atTime (max s.now t)).OnTime
  := by
  have hm : s.now + (t - s.now) = max s.now t := by omega
  have hd : ∀ due ∈ s.nextDue?, max s.now t ≤ due :=
    fun due hd => Nat.max_le.2 ⟨h due hd, ht due hd⟩
  refine ⟨?_, ⟨?_, trivial⟩, hd⟩
  · rw [run, List.foldl_cons, List.foldl_nil, step, hm]
  · rw [Prompt, hm]
    apply hd

/-- A timer that acts when it is due first is a run on time. -/
theorem timely_fire (env : Environment) (h : s.OnTime) {due : Nat} (hd : s.nextDue? = some due) :
  ∃ as, s.fire env due = s.run env as ∧ s.Timely env as ∧ (s.fire env due).OnTime
  := by
  have hle : ∀ due' ∈ s.nextDue?, due ≤ due' := by
    intro due' hd'
    exact Nat.le_of_eq (Option.some.inj (hd.symm.trans hd'))
  obtain ⟨hr, ht, ho⟩ := timely_elapse env h hle
  have hm : max s.now due = due := Nat.max_eq_right (h due hd)
  obtain ⟨hp, ho'⟩ := prompt_timerAct env ho
    (show (s.atTime (max s.now due)).nextDue? = some (max s.now due) by rw [hm]; apply hd)
  have hf : s.fire env due = (s.atTime (max s.now due)).step env
      ((s.atTime (max s.now due)).timerAct (max s.now due)) := by
    rw [hm, fire, timerAct, hm]
    split
    · rfl
    · split
      · rfl
      · rfl
  use [.elapse (due - s.now)] ++ [(s.atTime (max s.now due)).timerAct (max s.now due)]
  rw [run_concat, timely_concat, hr, hf]
  exact ⟨rfl, ⟨ht, hp⟩, ho'⟩

/-- Time that passes on the schedule is a run on time. -/
theorem timely_advance (env : Environment) (last : Nat) (h : s.OnTime) :
  ∃ as, s.advance env last = s.run env as ∧ s.Timely env as
  := by
  induction s using advance.induct env last with
  | case1 s hd =>
    have hle : ∀ due ∈ s.nextDue?, last ≤ due := by simp [hd]
    obtain ⟨hr, ht, -⟩ := timely_elapse env h hle
    use [.elapse (last - s.now)]
    rw [hr, advance]
    split
    · exact ⟨rfl, ht⟩
    · rename_i e
      rw [hd] at e
      contradiction
  | case2 s due hd hl ih =>
    obtain ⟨as, ha, hta, ho⟩ := timely_fire env h hd
    obtain ⟨bs, hb, htb⟩ := ih ho
    use as ++ bs
    rw [run_append, timely_append, ← ha, ← hb]
    refine ⟨?_, hta, htb⟩
    rw [advance]
    split
    · rename_i e
      rw [hd] at e
      contradiction
    · rename_i due' e
      obtain rfl := Option.some.inj (hd.symm.trans e)
      rw [dif_pos hl]
  | case3 s due hd hl =>
    have hle : ∀ due' ∈ s.nextDue?, last ≤ due' := by
      intro due' e
      obtain rfl := Option.some.inj (hd.symm.trans e)
      omega
    obtain ⟨hr, ht, -⟩ := timely_elapse env h hle
    use [.elapse (last - s.now)]
    rw [hr, advance]
    split
    · rename_i e
      rw [hd] at e
      contradiction
    · rename_i due' e
      obtain rfl := Option.some.inj (hd.symm.trans e)
      rw [dif_neg hl]
      exact ⟨rfl, ht⟩

end QuoteFeed.Service
