import QuoteFeed.Market.Changes
import QuoteFeed.Stream.Basic

/-!
# Synchronising the stream

`Stream.sync` makes the markets of interest equal to a wanted set: the markets that are no longer
wanted are dropped first, then the new ones are added, each in ascending order.
-/

namespace QuoteFeed.Stream

/-- One call on the stream. -/
def call (env : Environment) (s : Stream) : Call → Stream
  | .subscribe id => s.subscribe env id
  | .unsubscribe id => s.unsubscribe env id

/-- Makes the markets of interest equal to a wanted set. -/
def sync (env : Environment) (s : Stream) (wanted : IdSet) : Changes × Stream :=
  let changes := Changes.between wanted s.subscribed
  if changes.isEmpty then
    (changes, s)
  else
    let s := changes.calls.foldl (call env) s
    (changes,
      (s.measure (·.setSubscriptions wanted.size)).note
        (.synced changes.subscribe.size changes.unsubscribe.size wanted.size))

/-! ### The keepalive is left alone -/

@[simp]
theorem pinger_send (s : Stream) (m : Outbound) :
  (s.send m).pinger = s.pinger
  := by
  unfold send
  split
  · rfl
  · split <;> rfl

@[simp]
theorem pinger_requestSession (env : Environment) (s : Stream) :
  (s.requestSession env).pinger = s.pinger
  := by
  unfold requestSession
  split <;> rfl

@[simp]
theorem pinger_subscribe (env : Environment) (s : Stream) (id : MarketId) :
  (s.subscribe env id).pinger = s.pinger
  := by
  unfold subscribe
  split
  · rfl
  · dsimp only
    split
    · exact pinger_send _ _
    · split
      · rfl
      · exact pinger_requestSession _ _

@[simp]
theorem pinger_unsubscribe (env : Environment) (s : Stream) (id : MarketId) :
  (s.unsubscribe env id).pinger = s.pinger
  := by
  unfold unsubscribe
  split
  · dsimp only
    split
    · rfl
    · split
      · exact pinger_send _ _
      · rfl
  · rfl

@[simp]
theorem pinger_call (env : Environment) (s : Stream) (c : Call) :
  (s.call env c).pinger = s.pinger
  := by
  cases c
  · exact pinger_subscribe _ _ _
  · exact pinger_unsubscribe _ _ _

theorem pinger_calls (env : Environment) (cs : List Call) (s : Stream) :
  (cs.foldl (call env) s).pinger = s.pinger
  := by
  induction cs generalizing s with
  | nil => rfl
  | cons c cs ih => rw [List.foldl_cons, ih, pinger_call]

@[simp]
theorem pinger_sync (env : Environment) (s : Stream) (wanted : IdSet) :
  (s.sync env wanted).2.pinger = s.pinger
  := by
  unfold sync
  dsimp only
  split
  · rfl
  · exact pinger_calls _ _ _

/-! ### The next ping -/

@[simp]
theorem pinger_ping (env : Environment) (s : Stream) (generation : Nat) :
  (s.ping env generation).pinger = s.pinger
  := by
  rw [ping]
  split
  · dsimp only
    split
    · apply pinger_send
    · apply pinger_send
  · rfl

/-- A timer that acted is due at the next tick. -/
theorem pingDue_firePinger (env : Environment) {s : Stream} {due : Nat} (h : s.pingDue = some due) :
  (s.firePinger env due).pingDue =
    some (Clock.nextTick due s.now (max env.settings.stream.keepalive 1))
  := by
  obtain ⟨p, hp, -⟩ := Option.bind_eq_some_iff.1 h
  simp [firePinger, pingTick, setPinger, pingDue, hp]

end QuoteFeed.Stream
