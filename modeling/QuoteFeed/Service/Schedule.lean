import QuoteFeed.Service.Query

/-!
# The schedule of the service

Three timers act on their own while time passes: the refresh of the catalog, which chooses its
next time itself, the release of idle markets, once per demand window, and the ping of an open
session.  `Service.advance` lets time pass up to an instant, and every timer acts when it is due.
A timer whose act leads beyond the clock dies and the others go on.
-/

namespace QuoteFeed.Service

/-- Starts the service: the catalog is refreshed at once, and a session is asked for.  A service
that runs is left as it is. -/
def start (env : Environment) (s : Service) : Service :=
  if s.running then
    s
  else
    let s := { s with
      running := true
      refreshDue := some s.now
      sweepDue := Clock.firstTick? s.now env.settings.quotes.demandWindow }
    (s.onStream (·.start env)).note
      (.serviceStarted (Duration.wholeSeconds env.settings.quotes.demandWindow))

/-- Stops the service: the loops end, and the stream is stopped. -/
def stop (env : Environment) (s : Service) : Service :=
  let wasRunning := s.running
  let s := { s with running := false, refreshDue := none, sweepDue := none }.onStream (·.stop env)
  if wasRunning then s.note .serviceStopped else s

/-! ### Timers -/

/-- The refresh of the catalog acts. -/
def refreshTick (env : Environment) (s : Service) : Service :=
  let (delay, after) := s.refreshCycle env
  { after with refreshDue := delay.map (Clock.wake s.now) }

/-- The release of idle markets acts that was due at `due`. -/
def sweepTick (env : Environment) (s : Service) (due : Nat) : Service :=
  let next := Clock.nextTick due s.now (max env.settings.quotes.demandWindow 1)
  { (s.releaseIdle env).2 with sweepDue := some next }

/-- The ping acts that was due at `due`. -/
def pingTick (env : Environment) (s : Service) (due : Nat) : Service :=
  s.onStream (·.firePinger env due)

/-- The earlier of two times. -/
def earlier : Option Nat → Option Nat → Option Nat
  | some a, some b => some (min a b)
  | some a, none => some a
  | none, b => b

/-- When a timer acts next. -/
def nextDue? (s : Service) : Option Nat :=
  earlier s.refreshDue (earlier s.sweepDue s.pingDue)

/-- The time of the service is `now`. -/
def atTime (s : Service) (now : Nat) : Service :=
  s.withDesk { s.toDesk with now }

/-- A timer acts that is due at `due`. -/
def fire (env : Environment) (s : Service) (due : Nat) : Service :=
  let s := s.atTime (max s.now due)
  if s.refreshDue = some due then s.refreshTick env
  else if s.sweepDue = some due then s.sweepTick env due
  else s.pingTick env due

/-! ### Time passes -/

/-- The time left until `last` from `due` on. -/
def timeLeft (last : Nat) (due : Option Nat) : Nat :=
  (due.map (last + 1 - ·)).getD 0

/-- The time left for all timers. -/
def totalTimeLeft (last : Nat) (s : Service) : Nat :=
  timeLeft last s.refreshDue + timeLeft last s.sweepDue + timeLeft last s.pingDue

theorem timeLeft_lt {last due : Nat} {next : Option Nat} (h : due ≤ last)
    (hn : ∀ d, next = some d → due < d) :
  timeLeft last next < timeLeft last (some due)
  := by
  cases next with
  | none =>
    simp only [timeLeft, Option.map_none, Option.getD_none, Option.map_some, Option.getD_some]
    omega
  | some d =>
    have := hn d rfl
    simp only [timeLeft, Option.map_some, Option.getD_some]
    omega

theorem refreshTick_dues (env : Environment) (s : Service) :
  (s.refreshTick env).sweepDue = s.sweepDue ∧ (s.refreshTick env).pinger = s.pinger
  := by
  have h (f : Option Nat × Service) (hf : f = s.refreshCycle env) :
      f.2.sweepDue = s.sweepDue ∧ f.2.pinger = s.pinger := by
    subst hf
    have hr : (s.refresh env).2.sweepDue = s.sweepDue ∧ (s.refresh env).2.pinger = s.pinger := by
      unfold refresh
      dsimp only
      split <;> exact ⟨rfl, rfl⟩
    unfold refreshCycle
    split <;> (rename_i heq; rw [heq] at hr; exact hr)
  exact h _ rfl

theorem lt_refreshDue (env : Environment) (s : Service) {d : Nat}
    (h : (s.refreshTick env).refreshDue = some d) :
  s.now < d
  := by
  simp only [refreshTick] at h
  obtain ⟨delay, _, rfl⟩ := Option.map_eq_some_iff.1 h
  exact Clock.lt_wake _ _

theorem sweepTick_dues (env : Environment) (s : Service) (due : Nat) :
  (s.sweepTick env due).refreshDue = s.refreshDue ∧ (s.sweepTick env due).pinger = s.pinger
  := by
  refine ⟨?_, pinger_releaseIdle env s⟩
  unfold sweepTick releaseIdle
  dsimp only
  split <;> rfl

theorem nextDue_cases {s : Service} {due : Nat} (h : s.nextDue? = some due) :
  s.refreshDue = some due ∨ s.sweepDue = some due ∨ s.pingDue = some due
  := by
  unfold nextDue? earlier at h
  grind

/-- Every act leaves less time. -/
theorem totalTimeLeft_fire (env : Environment) {s : Service} {last due : Nat} (h : due ≤ last)
    (hd : s.nextDue? = some due) :
  totalTimeLeft last (s.fire env due) < totalTimeLeft last s
  := by
  have hle : due ≤ max s.now due := by omega
  unfold fire
  dsimp only
  split
  · rename_i hr
    have hr' : s.refreshDue = some due := hr
    obtain ⟨h1, h2⟩ := refreshTick_dues env (s.atTime (max s.now due))
    have h3 := @lt_refreshDue env (s.atTime (max s.now due))
    have hlt := timeLeft_lt h fun d e => Nat.lt_of_le_of_lt hle (h3 e)
    simp only [totalTimeLeft, Stream.pingDue, h1, h2, hr']
    exact Nat.add_lt_add_right (Nat.add_lt_add_right hlt _) _
  · rename_i hr
    split
    · rename_i hs
      have hs' : s.sweepDue = some due := hs
      obtain ⟨h1, h2⟩ := sweepTick_dues env (s.atTime (max s.now due)) due
      have hlt : timeLeft last ((s.atTime (max s.now due)).sweepTick env due).sweepDue <
          timeLeft last (some due) :=
        timeLeft_lt h fun d e => by
          have e : Clock.nextTick due (max s.now due) _ = d := Option.some.inj e
          rw [← e]
          exact Clock.lt_nextTick hle (by omega)
      simp only [totalTimeLeft, Stream.pingDue, h1, h2, hs']
      exact Nat.add_lt_add_right (Nat.add_lt_add_left hlt _) _
    · rename_i hs
      have hp : s.pingDue = some due := by
        rcases nextDue_cases hd with e | e | e
        · exact absurd e hr
        · exact absurd e hs
        · exact e
      have hlt : timeLeft last ((s.atTime (max s.now due)).pingTick env due).pingDue <
          timeLeft last (some due) :=
        timeLeft_lt h fun d e => by
          have hp' : (s.atTime (max s.now due)).pingDue = some due := hp
          have e : some _ = some d := (Stream.pingDue_firePinger env hp').symm.trans e
          rw [← Option.some.inj e]
          exact Clock.lt_nextTick hle (by omega)
      simp only [totalTimeLeft, hp]
      exact Nat.add_lt_add_left hlt _

/-- The service after time has passed up to `last`, and every timer has acted when it was due. -/
def advance (env : Environment) (last : Nat) (s : Service) : Service :=
  match _hd : s.nextDue? with
  | none => s.atTime (max s.now last)
  | some due =>
    if _h : due ≤ last then advance env last (s.fire env due) else s.atTime (max s.now last)
termination_by totalTimeLeft last s
decreasing_by exact totalTimeLeft_fire env _h _hd

/-- The service after all timers have acted that are due now. -/
def settle (env : Environment) (s : Service) : Service :=
  s.advance env s.now

/-- The service after some time has passed. -/
def sleep (env : Environment) (d : Nat) (s : Service) : Service :=
  s.advance env (s.now + d)

end QuoteFeed.Service
