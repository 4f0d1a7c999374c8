import QuoteFeed.Proofs.Stream.Interleaving

/-!
# The gauges of a stream

The gauges show the state of the connection and the number of markets of interest.  They are set in
few places: on entering a state, on a reset, and at the end of a synchronisation, which sets the
number that is wanted.  Calls by themselves change the markets of interest without the gauge, but
acts other than calls (`turns_act`) and whole synchronisations (`agrees_sync`) leave both gauges in
agreement with the connection.
-/

namespace QuoteFeed

/-- What the gauges show: a state of the connection, and a number of markets. -/
def Desk.gauges (d : Desk) : Nat × Nat :=
  (d.report.metrics.connectionState, d.report.metrics.subscriptions)

namespace Desk

variable {env : Environment} {d d' : Desk} {outcome : Outcome}

theorem gauges_take? {id : MarketId} {ts : Option Int} {prices : Option (Decimal × Decimal)}
    (h : d.take? env id ts prices = some (outcome, d')) :
  d'.gauges = d.gauges
  := by
  rw [take?.eq_def] at h
  split at h
  · obtain ⟨-, rfl⟩ := Prod.mk.inj (Option.some.inj h)
    rfl
  · split at h
    · obtain ⟨-, rfl⟩ := Prod.mk.inj (Option.some.inj h)
      rfl
    · obtain ⟨cache, -, hc⟩ := Option.map_eq_some_iff.1 h
      obtain ⟨-, rfl⟩ := Prod.mk.inj hc
      rfl

theorem gauges_takeEvent? {event : Inbound} (h : d.takeEvent? env event = some (outcome, d')) :
  d'.gauges = d.gauges
  := by
  cases event with
  | ticker id ts buy sell =>
    rw [takeEvent?] at h
    exact gauges_take? h
  | orderBook id ts asks bids =>
    rw [takeEvent?] at h
    exact gauges_take? h
  | pong ts =>
    obtain ⟨-, rfl⟩ := Prod.mk.inj (Option.some.inj h)
    rfl

/-- A frame leaves the gauges alone. -/
theorem gauges_process? {text : String} (h : d.process? env text = some (outcome, d')) :
  d'.gauges = d.gauges
  := by
  rw [process?] at h
  split at h
  · obtain ⟨-, rfl⟩ := Prod.mk.inj (Option.some.inj h)
    rfl
  · obtain ⟨⟨o, e⟩, he, hd⟩ := Option.map_eq_some_iff.1 h
    obtain ⟨-, rfl⟩ := Prod.mk.inj hd
    change e.gauges = d.gauges
    exact gauges_takeEvent? he

theorem gauges_beginRefresh (d : Desk) :
  d.beginRefresh.2.gauges = d.gauges
  := by
  rw [beginRefresh]
  split
  · rfl
  · rfl

theorem gauges_endRefresh (env : Environment) (d : Desk)
    (answer : Except FetchError (List Market)) :
  (d.endRefresh env answer).2.gauges = d.gauges
  := by
  cases answer with
  | error e => rfl
  | ok ms =>
    rw [endRefresh]
    split
    · rfl
    · rfl

end Desk

/-! ### Dials -/

/-- What the gauges are about, beside what they show. -/
structure Dials where
  state : ConnectionState
  subscribed : IdSet
  gauges : Nat × Nat

namespace Dials

/-- The dials after the connection entered a state. -/
def enter (d : Dials) (state : ConnectionState) : Dials :=
  { d with state, gauges := (state.gauge, d.gauges.2) }

/-- The dials after a number of markets was shown. -/
def display (d : Dials) (n : Nat) : Dials :=
  { d with gauges := (d.gauges.1, n) }

/-- The dials after a reset. -/
def reset : Dials := ⟨.disconnected, .empty, (0, 0)⟩

/-- The gauge of the state shows the state. -/
def ShowsState (d : Dials) : Prop := d.gauges.1 = d.state.gauge

/-- Both gauges agree with the connection. -/
structure Agree (d : Dials) : Prop where
  state : d.ShowsState
  count : d.gauges.2 = d.subscribed.size

/-- What becomes of the dials while the markets of interest are not changed by calls. -/
inductive Turns (d : Dials) : Dials → Prop where
  | stay : Turns d d
  | enter (state : ConnectionState) : Turns d (d.enter state)
  | reset : Turns d .reset

theorem Turns.agree {d d' : Dials} (h : d.Turns d') (ha : d.Agree) :
  d'.Agree
  := by
  cases h with
  | stay => exact ha
  | enter state => exact ⟨rfl, ha.count⟩
  | reset => exact ⟨rfl, rfl⟩

end Dials

namespace Stream

/-- The dials of the stream. -/
def dials (s : Stream) : Dials := ⟨s.state, s.subscribed, s.toDesk.gauges⟩

variable (env : Environment) (s : Stream)

theorem dials_withDesk {d : Desk} (h : d.gauges = s.toDesk.gauges) :
  { s with toDesk := d }.dials = s.dials
  := by
  rw [dials, dials, ← h]

theorem dials_send (m : Outbound) :
  (s.send m).dials = s.dials
  := by
  rw [send]
  split
  · rfl
  · split
    · rfl
    · rfl

theorem dials_sendAll (ms : List Outbound) :
  (s.sendAll ms).dials = s.dials
  := by
  induction ms generalizing s with
  | nil => rfl
  | cons m ms ih => exact (ih (s.send m)).trans (dials_send s m)

theorem dials_requestSession :
  (s.requestSession env).dials =
    if s.state = .disconnected then s.dials.enter .connecting else s.dials
  := by
  rw [requestSession]
  split
  · rfl
  · rfl

theorem dials_pingTick (generation due : Nat) :
  (s.pingTick env generation due).dials = s.dials
  := by
  have h : (s.ping env generation).dials = s.dials := by
    rw [ping]
    split
    · dsimp only
      split
      · exact dials_send s .ping
      · exact dials_send s .ping
    · rfl
  exact h

/-! ### Acts -/

theorem turns_start :
  s.dials.Turns (s.start env).dials
  := by
  rw [start, dials_requestSession]
  split
  · exact .enter .connecting
  · exact .stay

/-- A stop resets the dials, unless there is nothing to stop. -/
theorem turns_stop :
  s.dials.Turns (s.stop env).dials
  := by
  rw [stop]
  dsimp only
  split
  · exact .stay
  · exact .reset

theorem turns_opened (generation : Nat) :
  s.dials.Turns (s.opened env generation).dials
  := by
  rw [opened]
  split
  · have h : (s.flushed env).dials = s.dials.enter .connected := dials_sendAll _ _
    change s.dials.Turns (s.flushed env).dials
    rw [h]
    exact .enter .connected
  · exact .stay

theorem turns_ended (generation : Nat) (reason : String) :
  s.dials.Turns
    (((s.closed generation reason).endDispatch generation).note (.dispatchEnded generation)).dials
  := by
  have h : s.dials.Turns (s.closed generation reason).dials := by
    rw [closed]
    split
    · exact .reset
    · exact .stay
  exact h

theorem dials_received (generation : Nat) (text : String) :
  (s.received env generation text).dials = s.dials
  := by
  rw [received]
  split
  · split
    · rename_i outcome desk h
      exact dials_withDesk s (Desk.gauges_process? h)
    · rfl
  · rfl

variable {env s}

/-- Acts that are no calls turn the dials. -/
theorem turns_act {a : Act} (h : a.call? = none) :
  s.dials.Turns (s.act env a).dials
  := by
  cases a with
  | start => apply turns_start
  | stop => apply turns_stop
  | subscribe id => contradiction
  | unsubscribe id => contradiction
  | event n e =>
    rw [act, deliver]
    split
    · cases e with
      | opened => apply turns_opened
      | message text =>
        rw [handleEvent, dials_received]
        exact .stay
      | closed reason => apply turns_ended
      | errored reason => apply turns_ended
    · exact .stay
  | ping generation due =>
    rw [act, dials_pingTick]
    exact .stay
  | lose n => exact .stay
  | outage broken => exact .stay

/-! ### Synchronisations -/

/-- A call may ask for a session, which the gauge of the state shows. -/
theorem showsState_call (h : s.dials.ShowsState) (c : Call) :
  (s.call env c).dials.ShowsState
  := by
  cases c with
  | subscribe id =>
    rw [call, subscribe]
    split
    · exact h
    · dsimp only
      split
      · rw [dials_send]
        exact h
      · split
        · exact h
        · rw [dials_requestSession]
          split
          · rfl
          · exact h
  | unsubscribe id =>
    rw [call, unsubscribe]
    split
    · dsimp only
      split
      · exact h
      · split
        · rw [dials_send]
          exact h
        · exact h
    · exact h

theorem showsState_calls (h : s.dials.ShowsState) (cs : List Call) :
  (cs.foldl (call env) s).dials.ShowsState
  := by
  induction cs generalizing s with
  | nil => exact h
  | cons c cs ih => exact ih (showsState_call h c)

theorem dials_setSubscriptions (s : Stream) (n : Nat) (m : Note) :
  ((s.measure (·.setSubscriptions n)).note m).dials = s.dials.display n
  := rfl

theorem dials_sync (env : Environment) (s : Stream) (wanted : IdSet) :
  (s.sync env wanted).2 = s ∨ (s.sync env wanted).2.dials =
    ((Changes.between wanted s.subscribed).calls.foldl (call env) s).dials.display wanted.size
  := by
  rw [sync]
  dsimp only
  split
  · exact Or.inl rfl
  · right
    rw [dials_setSubscriptions]

/-- A synchronisation leaves the gauges in agreement with the connection: the number that it shows,
if anything changes, is that of the wanted markets, and these are the markets of interest then. -/
theorem agree_sync (h : s.dials.Agree) (wanted : IdSet) :
  (s.sync env wanted).2.dials.Agree
  := by
  have hs : (s.sync env wanted).2.dials.subscribed = wanted := subscribed_sync wanted
  obtain e | e := dials_sync env s wanted
  · rw [e]
    exact h
  · rw [e] at hs ⊢
    constructor
    · exact showsState_calls h.state _
    · rw [hs]
      rfl

end Stream

end QuoteFeed
