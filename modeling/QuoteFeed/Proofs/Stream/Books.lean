import Mathlib.Tactic.Use
import QuoteFeed.Stream.Sync

/-!
# The books of a stream

`Desk.books` is the desk without its report: the time, the catalog, the cache and the counters of
the keepalive.  Operations on the connection leave the books alone.  A ping and the frames of a
session change the books, but neither the time nor the catalog.
-/

namespace QuoteFeed

/-- The desk without its report. -/
def Desk.books (d : Desk) : Desk := { d with report := .empty }

/-- The desk after a ping was sent. -/
def Desk.countPing (env : Environment) (d : Desk) : Desk :=
  { d with
    keepalive :=
      { d.keepalive with
        pings := d.keepalive.pings + 1
        lastPing := some (env.wall d.now) } }

/-! ### Refreshing the catalog -/

namespace Desk

/-- Of the desk only the catalog and the report changed. -/
def SameQuotes (d d' : Desk) : Prop :=
  d'.now = d.now ∧ d'.cache = d.cache ∧ d'.keepalive = d.keepalive

namespace SameQuotes

variable {d d' d'' : Desk}

theorem refl (d : Desk) :
  d.SameQuotes d
  := ⟨rfl, rfl, rfl⟩

theorem trans (h : d.SameQuotes d') (h' : d'.SameQuotes d'') :
  d.SameQuotes d''
  := ⟨h'.1.trans h.1, h'.2.1.trans h.2.1, h'.2.2.trans h.2.2⟩

end SameQuotes

variable (env : Environment) (d : Desk)

theorem sameQuotes_beginRefresh :
  d.SameQuotes d.beginRefresh.2
  := by
  rw [beginRefresh]
  split
  · exact ⟨rfl, rfl, rfl⟩
  · exact ⟨rfl, rfl, rfl⟩

theorem sameQuotes_endRefresh (answer : Except FetchError (List Market)) :
  d.SameQuotes (d.endRefresh env answer).2
  := by
  cases answer with
  | error e => exact ⟨rfl, rfl, rfl⟩
  | ok ms =>
    rw [endRefresh]
    split
    · exact ⟨rfl, rfl, rfl⟩
    · exact ⟨rfl, rfl, rfl⟩

end Desk

/-! ### Frames -/

namespace Desk

variable {env : Environment} {d d' : Desk} {outcome : Outcome}

/-- The time and the catalog of the desk. -/
def setting (d : Desk) : Nat × Catalog := (d.now, d.catalog)

theorem setting_take? {id : MarketId} {ts : Option Int} {prices : Option (Decimal × Decimal)}
    (h : d.take? env id ts prices = some (outcome, d')) :
  d'.setting = d.setting
  := by
  rw [take?.eq_def] at h
  split at h
  · obtain ⟨-, rfl⟩ := Prod.mk.inj (Option.some.inj h)
    rfl
  · split at h
    · obtain ⟨-, rfl⟩ := Prod.mk.inj (Option.some.inj h)
      rfl
    · obtain ⟨cache, -, hc⟩ := Option.map_eq_some_iff.1 h
      obtain ⟨-, rfl⟩ := Prod.mk.inj hc
      rfl

theorem setting_takeEvent? {event : Inbound} (h : d.takeEvent? env event = some (outcome, d')) :
  d'.setting = d.setting
  := by
  cases event with
  | ticker id ts buy sell =>
    rw [takeEvent?] at h
    apply setting_take? h
  | orderBook id ts asks bids =>
    rw [takeEvent?] at h
    apply setting_take? h
  | pong ts =>
    obtain ⟨-, rfl⟩ := Prod.mk.inj (Option.some.inj h)
    rfl

/-- A frame changes neither the time nor the catalog. -/
theorem setting_process? {text : String} (h : d.process? env text = some (outcome, d')) :
  d'.setting = d.setting
  := by
  rw [process?] at h
  split at h
  · obtain ⟨-, rfl⟩ := Prod.mk.inj (Option.some.inj h)
    rfl
  · obtain ⟨⟨o, e⟩, he, hd⟩ := Option.map_eq_some_iff.1 h
    obtain ⟨-, rfl⟩ := Prod.mk.inj hd
    apply setting_takeEvent? he

/-! ### The report has no influence -/

/-- What became of a frame, and the books afterwards. -/
def aftermath (r : Outcome × Desk) : Outcome × Desk := (r.1, r.2.books)

variable (env : Environment) (d : Desk)

theorem aftermath_take? (id : MarketId) (ts : Option Int) (prices : Option (Decimal × Decimal)) :
  (d.books.take? env id ts prices).map aftermath = (d.take? env id ts prices).map aftermath
  := by
  rw [take?.eq_def, take?.eq_def]
  change Option.map aftermath (if (d.catalog.find? d.now id).isNone then _ else _) = _
  split
  · rfl
  · cases prices with
    | none => rfl
    | some prices =>
      dsimp only
      rw [store?, store?, Option.map_map, Option.map_map]
      rfl

theorem aftermath_takeEvent? (event : Inbound) :
  (d.books.takeEvent? env event).map aftermath = (d.takeEvent? env event).map aftermath
  := by
  cases event with
  | ticker id ts buy sell =>
    rw [takeEvent?, takeEvent?]
    apply aftermath_take?
  | orderBook id ts asks bids =>
    rw [takeEvent?, takeEvent?]
    apply aftermath_take?
  | pong ts => rfl

/-- What becomes of a frame does not depend on what was reported. -/
theorem aftermath_process? (text : String) :
  (d.books.process? env text).map aftermath = (d.process? env text).map aftermath
  := by
  rw [process?, process?]
  cases Inbound.decode text with
  | error e => rfl
  | ok event =>
    dsimp only
    rw [Option.map_map, Option.map_map]
    apply aftermath_takeEvent?

theorem isNone_process? {d d' : Desk} (h : d.books = d'.books) (text : String) :
  (d.process? env text).isNone = (d'.process? env text).isNone
  := by
  rw [← Option.isNone_map (f := aftermath), ← aftermath_process?, h, aftermath_process?,
    Option.isNone_map]

end Desk

/-! ### Operations on the connection -/

namespace Stream

variable (env : Environment) (s : Stream)

@[simp]
theorem books_note (n : Note) :
  (s.note n).toDesk.books = s.toDesk.books
  := rfl

@[simp]
theorem books_send (m : Outbound) :
  (s.send m).toDesk.books = s.toDesk.books
  := by
  rw [send]
  split
  · rfl
  · split
    · rfl
    · rfl

@[simp]
theorem books_sendAll (ms : List Outbound) :
  (s.sendAll ms).toDesk.books = s.toDesk.books
  := by
  induction ms generalizing s with
  | nil => rfl
  | cons m ms ih =>
    apply Eq.trans (ih (s.send m))
    apply books_send

@[simp]
theorem books_requestSession :
  (s.requestSession env).toDesk.books = s.toDesk.books
  := by
  rw [requestSession]
  split
  · rfl
  · rfl

@[simp]
theorem books_start :
  (s.start env).toDesk.books = s.toDesk.books
  := by
  rw [start, books_requestSession]

@[simp]
theorem books_withdraw :
  (s.withdraw env).toDesk.books = s.toDesk.books
  := by
  rw [withdraw]
  split
  · apply books_sendAll
  · rfl

@[simp]
theorem books_closeHandle :
  s.closeHandle.toDesk.books = s.toDesk.books
  := by
  rw [closeHandle]
  split
  · rfl
  · rfl

@[simp]
theorem books_reset :
  s.reset.toDesk.books = s.toDesk.books
  := rfl

@[simp]
theorem books_stop :
  (s.stop env).toDesk.books = s.toDesk.books
  := by
  rw [stop]
  split
  · rfl
  · dsimp only
    rw [books_reset, books_note, books_closeHandle, books_withdraw]

@[simp]
theorem books_subscribe (id : MarketId) :
  (s.subscribe env id).toDesk.books = s.toDesk.books
  := by
  rw [subscribe]
  split
  · rfl
  · dsimp only
    split
    · apply books_send
    · split
      · rfl
      · apply books_requestSession

@[simp]
theorem books_unsubscribe (id : MarketId) :
  (s.unsubscribe env id).toDesk.books = s.toDesk.books
  := by
  rw [unsubscribe]
  split
  · dsimp only
    split
    · rfl
    · split
      · apply books_send
      · rfl
  · rfl

@[simp]
theorem books_opened (generation : Nat) :
  (s.opened env generation).toDesk.books = s.toDesk.books
  := by
  rw [opened]
  split
  · dsimp only
    rw [books_note]
    apply books_sendAll
  · rfl

@[simp]
theorem books_closed (generation : Nat) (reason : String) :
  (s.closed generation reason).toDesk.books = s.toDesk.books
  := by
  rw [closed]
  split
  · rfl
  · rfl

@[simp]
theorem books_call (c : Call) :
  (s.call env c).toDesk.books = s.toDesk.books
  := by
  cases c with
  | subscribe id => apply books_subscribe
  | unsubscribe id => apply books_unsubscribe

theorem books_calls (cs : List Call) :
  (cs.foldl (call env) s).toDesk.books = s.toDesk.books
  := by
  induction cs generalizing s with
  | nil => rfl
  | cons c cs ih =>
    apply Eq.trans (ih (s.call env c))
    apply books_call

@[simp]
theorem books_sync (wanted : IdSet) :
  (s.sync env wanted).2.toDesk.books = s.toDesk.books
  := by
  rw [sync]
  dsimp only
  split
  · rfl
  · apply books_calls env s (Changes.between wanted s.subscribed).calls

/-! ### Time and catalog -/

/-- Of the books a ping changes only the counters of the keepalive. -/
theorem books_pingTick (generation due : Nat) :
  ∃ keepalive, (s.pingTick env generation due).toDesk.books = { s.toDesk.books with keepalive }
  := by
  have h : (s.send .ping).toDesk.books = s.toDesk.books := by apply books_send
  rw [pingTick, ping]
  split
  · dsimp only
    split
    · exact ⟨_, congrArg (Desk.countPing env) h⟩
    · exact ⟨_, h⟩
  · exact ⟨_, rfl⟩

/-- So it changes neither the time nor the catalog. -/
theorem setting_pingTick (generation due : Nat) :
  (s.pingTick env generation due).toDesk.setting = s.toDesk.setting
  := by
  obtain ⟨_, h⟩ := books_pingTick env s generation due
  apply congrArg Desk.setting h

/-- An event of a session changes neither the time nor the catalog. -/
theorem setting_deliver (session : Nat) (e : SessionEvent) :
  (s.deliver env session e).toDesk.setting = s.toDesk.setting
  := by
  rw [deliver]
  split
  · cases e with
    | opened => apply congrArg Desk.setting (books_opened env s session)
    | closed reason => apply congrArg Desk.setting (books_closed s session reason)
    | errored reason => apply congrArg Desk.setting (books_closed s session reason)
    | message text =>
      rw [handleEvent, received]
      split
      · split
        · rename_i outcome desk h
          apply Desk.setting_process? h
        · rfl
      · rfl
  · rfl

end Stream

end QuoteFeed
