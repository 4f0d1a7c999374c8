/-!
# Instants and durations

Time inside the service is counted in nanoseconds, as natural numbers: an instant from the start
of the service, and a duration from one instant to another.  An instant must stay below
`Clock.limit`, and adding a duration that leads beyond is an overflow (`Clock.after?`).

A periodic timer ticks at the multiples of its period (`Clock.firstTick?`, `Clock.nextTick`).  A
tick that is seen more than `Clock.tolerance` late counts as missed, and the next one is the first
multiple that is still ahead.  A timer that chooses its own delay wakes after it, or after the
resolution of the clock if that is longer (`Clock.wake`).
-/

namespace QuoteFeed

namespace Duration

/-- A span of whole seconds. -/
def seconds (n : Nat) : Nat := n * 1000000000

/-- A span of whole milliseconds. -/
def millis (n : Nat) : Nat := n * 1000000

/-- The longest span: `2 ^ 64` seconds less a nanosecond. -/
def greatest : Nat := Nat.pow 2 64 * 1000000000 - 1

/-- The sum of two spans, at most the longest. -/
def plus (a b : Nat) : Nat := min (a + b) greatest

/-- The whole seconds of a span. -/
def wholeSeconds (d : Nat) : Nat := d / 1000000000

/-- The nanoseconds of a span beyond its whole seconds. -/
def subsecNanos (d : Nat) : Nat := d % 1000000000

end Duration

namespace Clock

/-- The first instant that cannot be represented. -/
def limit : Nat := Nat.pow 2 63 * 1000000000

/-- The instant so long after another, if it can be represented. -/
def after? (now : Nat) (d : Nat) : Option Nat :=
  if now + d < limit then some (now + d) else none

/-- Thirty years, after which a timer wakes whose delay leads beyond the clock. -/
def farAhead : Nat := Duration.seconds (86400 * 365 * 30)

/-- The delay that a timer can tell from none. -/
def resolution : Nat := Duration.millis 1

/-- The lateness up to which a tick is not missed. -/
def tolerance : Nat := Duration.millis 5

/-- The instant at which a timer wakes that sleeps for `d`. -/
def wake (now : Nat) (d : Nat) : Nat :=
  (after? now (max d resolution)).getD (now + farAhead)

/-- The first tick of a periodic timer.  There is none if the period is zero or leads beyond the
clock. -/
def firstTick? (now : Nat) (period : Nat) : Option Nat :=
  if period = 0 then none else after? now period

/-- The tick after the one at `due`, which is seen at `now`. -/
def nextTick (due now : Nat) (period : Nat) : Nat :=
  if now > due + tolerance then now + (period - (now - due) % period)
  else (after? due period).getD (now + farAhead)

theorem lt_wake (now : Nat) (d : Nat) :
  now < wake now d
  := by
  have hr : 0 < resolution := by decide
  have hf : 0 < farAhead := by decide
  unfold wake after?
  split
  · simp only [Option.getD_some]
    omega
  · simp only [Option.getD_none]
    omega

/-- A timer wakes when its delay is over, or the resolution of the clock. -/
theorem wake_eq {now d : Nat} (h : now + max d resolution < limit) :
  wake now d = now + max d resolution
  := by
  rw [wake, after?, if_pos h]
  rfl

/-- Ticks go forward: the next one is later than the one before. -/
theorem lt_nextTick {due now : Nat} {period : Nat} (h : due ≤ now) (hp : 0 < period) :
  due < nextTick due now period
  := by
  have hf : 0 < farAhead := by decide
  unfold nextTick after?
  split
  · have := Nat.mod_lt (now - due) hp
    omega
  · split
    · simp only [Option.getD_some]
      omega
    · simp only [Option.getD_none]
      omega

end Clock

end QuoteFeed
