import QuoteFeed.Desk
import QuoteFeed.Market.IdSet
import QuoteFeed.Stream.Event
import QuoteFeed.Stream.State
import QuoteFeed.Stream.Transport

/-!
# The stream

The single connection to the exchange, on top of the quote desk that its frames go to.

Markets are subscribed at once while the session is open.  Otherwise they are pending: they are
announced once the session opens, and the first of them asks for a session unless the stream was
stopped.  Every session has a generation, and events of another generation than the current one,
or of a session that is already over, are without effect.  While the session is open a ping goes
out once per keepalive interval.
-/

namespace QuoteFeed

/-- The timer that pings a session. -/
structure Pinger where
  /-- The generation of the session. -/
  generation : Nat
  /-- When the next ping is due; never, if the first would lead beyond the clock. -/
  due : Option Nat
  deriving DecidableEq

/-- The connection to the exchange, without the desk behind it. -/
structure Link where
  state : ConnectionState
  /-- The generation of the latest session. -/
  generation : Nat
  /-- The session whose handle is held. -/
  handle : Option Nat
  /-- The markets of interest, announced or not. -/
  subscribed : IdSet
  /-- The markets that are announced when the session opens. -/
  pending : IdSet
  /-- The timer that is held. -/
  pinger : Option Pinger
  /-- The stream was stopped, and no subscription asks for a session. -/
  stopped : Bool
  transport : Transport

/-- The connection to the exchange and its desk. -/
structure Stream extends Desk, Link

namespace Stream

/-- The stream at the start. -/
def initial : Stream :=
  { Desk.initial with
    state := .disconnected
    generation := 0
    handle := none
    subscribed := .empty
    pending := .empty
    pinger := none
    stopped := false
    transport := .empty }

/-- A note was made. -/
def note (s : Stream) (n : Note) : Stream :=
  { s with report := s.report.note n }

/-- The metrics changed. -/
def measure (s : Stream) (f : Metrics → Metrics) : Stream :=
  { s with report := s.report.measure f }

/-- When the next ping is due. -/
def pingDue (s : Stream) : Option Nat :=
  s.pinger.bind (·.due)

/-- The events of a generation belong to the session that is held. -/
def isCurrent (s : Stream) (generation : Nat) : Bool :=
  s.generation = generation && s.state ≠ .disconnected

/-! ### Sending -/

/-- The message that announces a market. -/
def subscribeMessage (env : Environment) (id : MarketId) : Outbound :=
  .subscribe id env.settings.stream.channel env.settings.stream.subscriptionLimit

/-- The message that takes a market back. -/
def unsubscribeMessage (env : Environment) (id : MarketId) : Outbound :=
  .unsubscribe id env.settings.stream.channel

/-- A message will be taken. -/
def canSend (s : Stream) : Bool :=
  (s.handle.map s.transport.accepts).getD false

/-- Sends a message on the session that is held.  Without a session nothing happens; a session
that refuses leaves a note. -/
def send (s : Stream) (m : Outbound) : Stream :=
  match s.handle with
  | none => s
  | some n =>
    if s.transport.accepts n then
      { s with transport := s.transport.record n m }.measure (·.countSent m.messageType)
    else
      s.note (.frameRefused s.generation)

/-- Sends messages one after the other. -/
def sendAll (s : Stream) (ms : List Outbound) : Stream :=
  ms.foldl send s

/-! ### Opening and ending a session -/

/-- The connection is in a new state. -/
def enter (s : Stream) (state : ConnectionState) : Stream :=
  { s with state }.measure (·.setConnectionState state)

/-- Asks for a session, unless there is one.  This is the result where there is a queue for the
events of the session (`IsQueue`); where there is none the call fails half way. -/
def requestSession (env : Environment) (s : Stream) : Stream :=
  if s.state = .disconnected then
    let generation := s.generation + 1
    let transport := s.transport.connect
    ({ s with generation, handle := some transport.connects, transport }.enter .connecting).note
      (.connecting generation env.settings.stream.url)
  else
    s

/-- Forgets the session and all interest. -/
def reset (s : Stream) : Stream :=
  ({ s with pinger := none, handle := none, subscribed := .empty, pending := .empty }.enter
    .disconnected).measure (·.setSubscriptions 0)

/-- Starts the stream: asks for a session, unless there is one. -/
def start (env : Environment) (s : Stream) : Stream :=
  { s with stopped := false }.requestSession env

/-- The markets that were announced on the session. -/
def announced (s : Stream) : IdSet :=
  s.subscribed.diff s.pending

/-- Takes the announced markets back, while the session is open. -/
def withdraw (env : Environment) (s : Stream) : Stream :=
  if s.state = .connected then s.sendAll (s.announced.ids.map (unsubscribeMessage env)) else s

/-- Closes the handle that is held. -/
def closeHandle (s : Stream) : Stream :=
  match s.handle with
  | none => s
  | some n => { s with transport := s.transport.close n }

/-- Stops the stream: takes the announced markets back, closes the session and forgets all. -/
def stop (env : Environment) (s : Stream) : Stream :=
  let s := { s with stopped := true }
  if s.state = .disconnected ∧ s.handle.isNone then
    s
  else
    let s := (s.withdraw env).closeHandle
    (s.note (.stopped s.generation)).reset

/-! ### Interest in markets -/

/-- Adds a market of interest. -/
def subscribe (env : Environment) (s : Stream) (id : MarketId) : Stream :=
  if id ∈ s.subscribed then
    s
  else
    let s := { s with subscribed := s.subscribed.insert id }
    if s.state = .connected then
      s.send (subscribeMessage env id)
    else
      let s := { s with pending := s.pending.insert id }
      if s.stopped then s.note (.subscribeHeld id)
      else (s.note (.subscribeDeferred id)).requestSession env

/-- Drops a market of interest.  One that is pending costs no message. -/
def unsubscribe (env : Environment) (s : Stream) (id : MarketId) : Stream :=
  if id ∈ s.subscribed then
    let s := { s with subscribed := s.subscribed.erase id }
    if id ∈ s.pending then
      { s with pending := s.pending.erase id }
    else if s.state = .connected then
      s.send (unsubscribeMessage env id)
    else
      s
  else
    s

/-! ### Events and pings -/

/-- The session of a generation opened: the pending markets are announced, and pings begin. -/
def opened (env : Environment) (s : Stream) (generation : Nat) : Stream :=
  if s.generation = generation ∧ s.state = .connecting then
    let s := s.enter .connected
    let pending := s.pending
    let s := { s with pending := .empty }.sendAll (pending.ids.map (subscribeMessage env))
    let due := Clock.firstTick? s.now env.settings.stream.keepalive
    let s := { s with pinger := some ⟨generation, due⟩ }
    s.note (.connected generation s.subscribed.size)
  else
    s.note (.staleOpen generation)

/-- The session of a generation ended. -/
def closed (s : Stream) (generation : Nat) (reason : String) : Stream :=
  if s.isCurrent generation then
    (s.note (.closed generation reason s.subscribed.size)).reset
  else
    s.note (.staleClose generation reason)

/-- The dispatch of a session ends. -/
def endDispatch (s : Stream) (generation : Nat) : Stream :=
  { s with transport := s.transport.ignore generation }

/-- A frame arrived on the session of a generation.  If the lifetime of its quote leads beyond the
clock, the dispatch of the session dies. -/
def received (env : Environment) (s : Stream) (generation : Nat) (text : String) : Stream :=
  if s.isCurrent generation then
    match s.toDesk.process? env text with
    | some (_, desk) => { s with toDesk := desk }
    | none => s.endDispatch generation
  else
    s

/-- An event of the session of a generation, as long as it is heard. -/
def handleEvent (env : Environment) (s : Stream) (generation : Nat) : SessionEvent → Stream
  | .opened => s.opened env generation
  | .message text => s.received env generation text
  | .closed reason => ((s.closed generation reason).endDispatch generation).note
      (.dispatchEnded generation)
  | .errored reason => ((s.closed generation reason).endDispatch generation).note
      (.dispatchEnded generation)

/-- Delivers an event of a session.  An event of a session that is not heard is lost. -/
def deliver (env : Environment) (s : Stream) (session : Nat) (e : SessionEvent) : Stream :=
  if s.transport.hears session then s.handleEvent env session e else s

/-- Delivers an event of the latest session.  That nobody listens leaves a note. -/
def deliverLatest (env : Environment) (s : Stream) (e : SessionEvent) : Stream :=
  if s.transport.sessions.isEmpty then s.note .noSession
  else if s.transport.hears s.transport.connects then s.deliver env s.transport.connects e
  else s.note .receiverDropped

/-- Sends a ping on the session of a generation, if it is open. -/
def ping (env : Environment) (s : Stream) (generation : Nat) : Stream :=
  if s.generation = generation ∧ s.state = .connected then
    let sent := s.canSend
    let s := s.send .ping
    if sent then
      { s with
        keepalive :=
          { s.keepalive with
            pings := s.keepalive.pings + 1
            lastPing := some (env.wall s.now) } }
    else
      s
  else
    s

/-- Sets the timer that pings a generation, if that is the one that is held. -/
def setPinger (s : Stream) (generation : Nat) (due : Option Nat) : Stream :=
  { s with pinger := s.pinger.map fun p => if p.generation = generation then { p with due } else p }

/-- The timer that pings a generation acts, which was due at `due`. -/
def pingTick (env : Environment) (s : Stream) (generation due : Nat) : Stream :=
  let next := Clock.nextTick due s.now (max env.settings.stream.keepalive 1)
  (s.ping env generation).setPinger generation (some next)

/-- The timer that is held acts, which was due at `due`. -/
def firePinger (env : Environment) (s : Stream) (due : Nat) : Stream :=
  match s.pinger with
  | none => s
  | some p => s.pingTick env p.generation due

/-- Forgets the notes and the messages that were sent so far. -/
def clearRecords (s : Stream) : Stream :=
  { s with
    report := { s.report with notes := [] }
    transport := { s.transport with sent := [] } }

/-- A description of the stream. -/
def describe (s : Stream) : String :=
  "StreamConnection \x7b state: " ++ s.state.title ++ ", generation: " ++
    Numeral.text s.generation ++ ", subscribed: " ++ Numeral.text s.subscribed.size ++
    ", pending: " ++ Numeral.text s.pending.size ++ ", .. \x7d"

end Stream

end QuoteFeed
