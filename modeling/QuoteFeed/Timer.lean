import QuoteFeed.Clock

/-!
# Timers

A timer that counts its runs, of one of two plans.  A periodic timer runs once per period.  An
adaptive timer chooses after each run the delay until the next, and its runs may take time.
`Timer.runUntil` lets the timer act up to an instant, either at the time each act is due or late,
at the end.  Cancelling a timer, or dropping its handle, drops a run that is in progress.
-/

namespace QuoteFeed

/-- What a timer does. -/
inductive Timer.Plan where
  /-- A run per period. -/
  | every (period : Nat)
  /-- Runs that take `run`, and the delays after the first, the second and so on. -/
  | adaptive (delays : List Nat) (run : Nat)

/-- What became of the handle of a timer. -/
inductive Timer.Handle where
  | live
  | cancelled
  | dropped
  deriving DecidableEq

/-- A timer that counts its runs.  `next` is when it acts next: by starting a run or, while
`running`, by finishing one. -/
structure Timer where
  plan : Timer.Plan
  next : Option Nat
  running : Bool
  started : Nat
  finished : Nat
  handle : Timer.Handle

namespace Timer

/-- A periodic timer. -/
def every (now : Nat) (period : Nat) : Timer :=
  ⟨.every period, Clock.firstTick? now period, false, 0, 0, .live⟩

/-- An adaptive timer whose first run is after `initial`. -/
def adaptive (now : Nat) (initial : Nat) (delays : List Nat) (run : Nat) : Timer :=
  ⟨.adaptive delays run, some ((Clock.after? now initial).getD (now + Clock.farAhead)), false, 0, 0,
    .live⟩

/-- The delay that is chosen after the run number `n`, counted from one: the last of the list
stands for all that follow, and a second for an empty list. -/
def delayAfter (delays : List Nat) (n : Nat) : Nat :=
  (delays[n - 1]? <|> delays.getLast?).getD (Duration.millis 1000)

/-- The end of a run at `now`. -/
def finishRun (delays : List Nat) (now : Nat) (t : Timer) : Timer :=
  { t with
    next := some (Clock.wake now (delayAfter delays t.started))
    running := false
    finished := t.finished + 1 }

/-- The act that was due at `due`, done at `now`. -/
def act (due now : Nat) (t : Timer) : Timer :=
  match t.plan with
  | .every period =>
    { t with
      next := some (Clock.nextTick due now (max period 1))
      started := t.started + 1
      finished := t.finished + 1 }
  | .adaptive delays run =>
    if t.running then
      t.finishRun delays now
    else if run = 0 then
      { t with started := t.started + 1 }.finishRun delays now
    else
      { t with next := some (now + run), running := true, started := t.started + 1 }

/-- An act is followed by one that is due later. -/
theorem lt_next_act {due now : Nat} (t : Timer) (h : due ≤ now) :
  ∃ d, (t.act due now).next = some d ∧ due < d
  := by
  unfold act
  split
  · exact ⟨_, rfl, Clock.lt_nextTick h (by omega)⟩
  · split
    · exact ⟨_, rfl, Nat.lt_of_le_of_lt h (Clock.lt_wake _ _)⟩
    · split
      · exact ⟨_, rfl, Nat.lt_of_le_of_lt h (Clock.lt_wake _ _)⟩
      · exact ⟨_, rfl, by omega⟩

/-- The time left until `last` from the next act on. -/
def timeLeft (last : Nat) (t : Timer) : Nat :=
  (t.next.map (last + 1 - ·)).getD 0

/-- When an act is done that is due at `due`: then, or late, at the end. -/
def doneAt (late : Bool) (last due : Nat) : Nat :=
  if late then last else due

theorem le_doneAt {late : Bool} {last due : Nat} (h : due ≤ last) :
  due ≤ doneAt late last due
  := by
  unfold doneAt
  split <;> omega

/-- The timer after all acts that are due up to `last`, each done when it is due or, if `late`, at
the end. -/
def runUntil (late : Bool) (last : Nat) (t : Timer) : Timer :=
  match _hn : t.next with
  | none => t
  | some due =>
    if _h : due ≤ last then
      runUntil late last (t.act due (doneAt late last due))
    else
      t
termination_by t.timeLeft last
decreasing_by
  obtain ⟨d, hd, hlt⟩ := lt_next_act t (le_doneAt _h : due ≤ doneAt late last due)
  simp only [timeLeft, hd, _hn, Option.map_some, Option.getD_some]
  omega

/-- Stops the timer. -/
def cancel (t : Timer) : Timer :=
  { t with next := none, running := false, handle := .cancelled }

/-- Gives the handle away, which stops the timer. -/
def drop (t : Timer) : Timer :=
  { t with next := none, running := false, handle := .dropped }

/-- The timer was cancelled; unknown once the handle is gone. -/
def isCancelled? (t : Timer) : Option Bool :=
  match t.handle with
  | .live => some false
  | .cancelled => some true
  | .dropped => none

end Timer

end QuoteFeed
