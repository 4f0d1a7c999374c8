import Mathlib.Tactic.Use
import QuoteFeed.Proofs.Desk

/-!
# What is counted of a frame

Every frame is counted under one type of event (`Desk.kindOf`), and under a reason if it is dropped
(`Desk.reason?`); which, is a matter of the frame, the catalog and the time.  The counters of a desk
(`Desk.counts`) follow these (`Desk.counts_process?`), and refreshes leave them alone.
-/

namespace QuoteFeed

/-- The counters of frames, of messages and of pings. -/
structure Counts where
  received : EventCounts
  dropped : DropCounts
  /-- The answers to pings, in the metrics. -/
  ackMetric : Nat
  /-- The answers to pings, in the keepalive. -/
  acks : Nat
  sent : MessageCounts
  /-- The pings, in the metrics. -/
  pingMetric : Nat
  /-- The pings, in the keepalive. -/
  pings : Nat

namespace Desk

/-- The counters of a desk. -/
def counts (d : Desk) : Counts :=
  { received := d.report.metrics.received
    dropped := d.report.metrics.dropped
    ackMetric := d.report.metrics.acks
    acks := d.keepalive.acks
    sent := d.report.metrics.sent
    pingMetric := d.report.metrics.pings
    pings := d.keepalive.pings }

/-- The type of event that a frame is counted under. -/
def kindOf (text : String) : EventType :=
  match Inbound.decode text with
  | .ok event => eventType event
  | .error _ => .other

/-- Why no quote of a market is taken, if none is: first the market must be live, and then there
must be prices. -/
def reasonFor? (d : Desk) (id : MarketId) (priced : Bool) : Option DropReason :=
  if ¬ d.Lists id then some .unknownMarket else if priced then none else some .emptyBook

/-- Why an event is dropped, if it is.  A book has prices if both its sides have one. -/
def reasonIn? (d : Desk) : Inbound → Option DropReason
  | .ticker id .. => d.reasonFor? id true
  | .orderBook id _ asks bids =>
    d.reasonFor? id ((averagePrice? bids).isSome && (averagePrice? asks).isSome)
  | .pong _ => none

/-- Why a frame was dropped, if it was. -/
def Outcome.reason? : Outcome → Option DropReason
  | .dropped reason => some reason
  | _ => none

/-- Why a frame is dropped, if it is: it is an event of a type that is not known, or no event at
all, or its event is dropped. -/
def reason? (d : Desk) (text : String) : Option DropReason :=
  match Inbound.decode text with
  | .ok event => d.reasonIn? event
  | .error (.unknownType _) => some .unsupportedType
  | .error _ => some .malformed

end Desk

namespace Counts

/-- The counters after an event of a type was received. -/
def receive (c : Counts) (kind : EventType) : Counts :=
  { c with received := c.received.bump kind }

/-- The counters after a frame was dropped, if there is a reason. -/
def drop (c : Counts) : Option DropReason → Counts
  | none => c
  | some reason => { c with dropped := c.dropped.bump reason }

/-- The counters after a ping was answered. -/
def acknowledge (c : Counts) : Counts :=
  { c with ackMetric := c.ackMetric + 1, acks := c.acks + 1 }

/-- The counters after a frame. -/
def take (c : Counts) (kind : EventType) (reason : Option DropReason) : Counts :=
  let c := (c.drop reason).receive kind
  if kind = .pong then c.acknowledge else c

variable (c : Counts) (kind : EventType) (reason : Option DropReason)

theorem received_take :
  (c.take kind reason).received = c.received.bump kind
  := by
  cases reason <;> cases kind <;> rfl

theorem dropped_take :
  (c.take kind reason).dropped = (reason.map c.dropped.bump).getD c.dropped
  := by
  cases reason <;> cases kind <;> rfl

theorem acks_take :
  (c.take kind reason).acks = c.acks + if kind = .pong then 1 else 0
  := by
  cases reason <;> cases kind <;> rfl

theorem ackMetric_take :
  (c.take kind reason).ackMetric = c.ackMetric + if kind = .pong then 1 else 0
  := by
  cases reason <;> cases kind <;> rfl

/-- Frames do not count as messages, nor as pings. -/
theorem outbound_take :
  (c.take kind reason).sent = c.sent ∧ (c.take kind reason).pingMetric = c.pingMetric ∧
    (c.take kind reason).pings = c.pings
  := by
  cases reason <;> cases kind <;> exact ⟨rfl, rfl, rfl⟩

end Counts

namespace Desk

variable {env : Environment} {d d' : Desk} {outcome : Outcome}

/-- The prices of a market that are taken are not counted, or dropped for a reason. -/
theorem counts_take? {id : MarketId} {ts : Option Int} {prices : Option (Decimal × Decimal)}
    (h : d.take? env id ts prices = some (outcome, d')) :
  outcome.reason? = d.reasonFor? id prices.isSome ∧ d'.counts = d.counts.drop outcome.reason?
  := by
  rw [take?.eq_def] at h
  rw [reasonFor?]
  by_cases hl : d.Lists id
  · rw [if_neg (fun hn => isNone_find?.1 hn hl)] at h
    rw [if_neg (fun hn => hn hl)]
    cases prices with
    | none =>
      obtain ⟨rfl, rfl⟩ := Prod.mk.inj (Option.some.inj h)
      exact ⟨rfl, rfl⟩
    | some prices =>
      obtain ⟨cache, -, e⟩ := Option.map_eq_some_iff.1 h
      obtain ⟨rfl, rfl⟩ := Prod.mk.inj e
      exact ⟨rfl, rfl⟩
  · rw [if_pos (isNone_find?.2 hl)] at h
    rw [if_pos hl]
    obtain ⟨rfl, rfl⟩ := Prod.mk.inj (Option.some.inj h)
    exact ⟨rfl, rfl⟩

theorem isSome_bookPrices? (asks bids : List Level) :
  (bookPrices? asks bids).isSome = ((averagePrice? bids).isSome && (averagePrice? asks).isSome)
  := by
  rw [bookPrices?]
  cases averagePrice? bids with
  | none => rfl
  | some bid =>
    cases averagePrice? asks with
    | none => rfl
    | some ask => rfl

/-- An event that is taken is dropped for a reason, or answers a ping, or is not counted yet. -/
theorem counts_takeEvent? {event : Inbound} (h : d.takeEvent? env event = some (outcome, d')) :
  outcome.reason? = d.reasonIn? event ∧
    d'.counts.receive (eventType event) = d.counts.take (eventType event) outcome.reason?
  := by
  cases event with
  | ticker id ts buy sell =>
    have h : d.take? env id ts (some (sell, buy)) = some (outcome, d') := h
    obtain ⟨hr, hc⟩ := counts_take? h
    use hr
    rw [hc]
    rfl
  | orderBook id ts asks bids =>
    have h : d.take? env id ts (bookPrices? asks bids) = some (outcome, d') := h
    obtain ⟨hr, hc⟩ := counts_take? h
    rw [isSome_bookPrices?] at hr
    use hr
    rw [hc]
    rfl
  | pong ts =>
    obtain ⟨rfl, rfl⟩ := Prod.mk.inj (Option.some.inj h)
    exact ⟨rfl, rfl⟩

/-- A frame that is taken is counted under its type, and under a reason if it is dropped. -/
theorem counts_process? {text : String} (h : d.process? env text = some (outcome, d')) :
  outcome.reason? = d.reason? text ∧ d'.counts = d.counts.take (kindOf text) outcome.reason?
  := by
  rw [process?] at h
  rw [kindOf, reason?]
  cases hd : Inbound.decode text with
  | error e =>
    rw [hd] at h
    obtain ⟨rfl, rfl⟩ := Prod.mk.inj (Option.some.inj h)
    cases e with
    | unknownType name => exact ⟨rfl, rfl⟩
    | _ => exact ⟨rfl, rfl⟩
  | ok event =>
    rw [hd] at h
    obtain ⟨⟨outcome', d₁⟩, ht, e⟩ := Option.map_eq_some_iff.1 h
    obtain ⟨rfl, rfl⟩ := Prod.mk.inj e
    apply counts_takeEvent? ht

/-! ### Quotes and reasons -/

theorem reasonFor?_cases (d : Desk) (id : MarketId) (priced : Bool) :
  d.reasonFor? id priced = none ∨ d.reasonFor? id priced = some .unknownMarket ∨
    d.reasonFor? id priced = some .emptyBook
  := by
  rw [reasonFor?]
  split
  · exact Or.inr (Or.inl rfl)
  · split
    · exact Or.inl rfl
    · exact Or.inr (Or.inr rfl)

/-- A quote of a market is given unless there is a reason to drop it. -/
theorem isSome_quoteIn? (env : Environment) (d : Desk) {event : Inbound}
    (h : eventType event ≠ .pong) :
  (d.quoteIn? env event).isSome ↔ d.reasonIn? event = none
  := by
  have priced (id : MarketId) (ts : Option Int) (bid ask : Decimal) :
      (d.quote? env id ts bid ask).isSome ↔ d.reasonFor? id true = none := by
    rw [quote?, reasonFor?]
    by_cases hl : d.Lists id
    · simp [hl]
    · simp [hl]
  have unpriced (id : MarketId) : d.reasonFor? id false ≠ none := by
    rw [reasonFor?]
    split
    · simp
    · simp
  cases event with
  | ticker id ts buy sell => apply priced
  | orderBook id ts asks bids =>
    rw [quoteIn?, reasonIn?]
    cases averagePrice? bids with
    | none => simp [unpriced]
    | some bid =>
      cases averagePrice? asks with
      | none => simp [unpriced]
      | some ask => apply priced
  | pong ts => exact absurd rfl h

/-! ### Refreshes -/

theorem counts_beginRefresh (d : Desk) :
  d.beginRefresh.2.counts = d.counts
  := by
  rw [beginRefresh]
  split
  · rfl
  · rfl

theorem counts_endRefresh (env : Environment) (d : Desk)
    (answer : Except FetchError (List Market)) :
  (d.endRefresh env answer).2.counts = d.counts
  := by
  cases answer with
  | error e => rfl
  | ok ms =>
    rw [endRefresh]
    split
    · rfl
    · rfl

end Desk

/-- A frame that is processed, and the desk that it meets. -/
structure Frame where
  desk : Desk
  text : String

namespace Frame

/-- The type of event that the frame is counted under. -/
def kind (f : Frame) : EventType := Desk.kindOf f.text

/-- Why the frame is dropped, if it is. -/
def reason? (f : Frame) : Option DropReason := f.desk.reason? f.text

/-- The quote that the frame gives. -/
def quote? (env : Environment) (f : Frame) : Option Quote := f.desk.quoteOf? env f.text

/-- What becomes of the frame, unless the lifetime of its quote leads beyond the clock. -/
def outcome? (env : Environment) (f : Frame) : Option Desk.Outcome :=
  (f.desk.process? env f.text).map (·.1)

/-- A frame is no event and is dropped as such, or it answers a ping, or it is of a market: then it
gives a quote or is dropped for the market or its book. -/
theorem kind_cases (env : Environment) (f : Frame) :
  (f.kind = .other ∧ f.quote? env = none ∧
      (f.reason? = some .malformed ∨ f.reason? = some .unsupportedType))
    ∨ (f.kind = .pong ∧ f.quote? env = none ∧ f.reason? = none)
    ∨ ((f.kind = .ticker ∨ f.kind = .orderBook) ∧
      ((∃ q, f.quote? env = some q) ∧ f.reason? = none
        ∨ f.quote? env = none ∧
          (f.reason? = some .unknownMarket ∨ f.reason? = some .emptyBook)))
  := by
  have ofMarket {event : Inbound} (h : Desk.eventType event ≠ .pong) {id : MarketId} {priced : Bool}
      (hr : f.desk.reasonIn? event = f.desk.reasonFor? id priced) :
      (∃ q, f.desk.quoteIn? env event = some q) ∧ f.desk.reasonIn? event = none
        ∨ f.desk.quoteIn? env event = none ∧
          (f.desk.reasonIn? event = some .unknownMarket
            ∨ f.desk.reasonIn? event = some .emptyBook) := by
    have hq := Desk.isSome_quoteIn? env f.desk h
    rw [← Option.isSome_iff_exists]
    rw [hr] at hq ⊢
    obtain e | e := f.desk.reasonFor?_cases id priced
    · exact Or.inl ⟨hq.2 e, e⟩
    · right
      use Option.not_isSome_iff_eq_none.1 fun hs => by simp [hq.1 hs] at e
  rw [kind, reason?, quote?, Desk.kindOf, Desk.reason?, Desk.quoteOf?]
  cases Inbound.decode f.text with
  | error e =>
    left
    cases e with
    | unknownType name => exact ⟨rfl, rfl, Or.inr rfl⟩
    | _ => exact ⟨rfl, rfl, Or.inl rfl⟩
  | ok event =>
    right
    cases event with
    | ticker id ts buy sell => exact Or.inr ⟨Or.inl rfl, ofMarket (by rintro ⟨⟩) rfl⟩
    | orderBook id ts asks bids => exact Or.inr ⟨Or.inr rfl, ofMarket (by rintro ⟨⟩) rfl⟩
    | pong ts => exact Or.inl ⟨rfl, rfl, rfl⟩

/-- Every frame is of one type, the frames of markets give quotes or are dropped for their market or
their book, and those that are no events are dropped as such. -/
theorem countP_kind (env : Environment) (frames : List Frame) :
  let ofKind (k : EventType) := frames.countP (·.kind = k)
  let dropped (r : DropReason) := frames.countP (·.reason? = some r)
  ofKind .ticker + ofKind .orderBook + ofKind .pong + ofKind .other = frames.length ∧
    ofKind .ticker + ofKind .orderBook =
      (frames.filterMap (·.quote? env)).length + dropped .unknownMarket + dropped .emptyBook ∧
    ofKind .other = dropped .malformed + dropped .unsupportedType
  := by
  dsimp only
  induction frames with
  | nil => exact ⟨rfl, rfl, rfl⟩
  | cons f frames ih =>
    obtain ⟨hl, hm, ho⟩ := ih
    simp only [List.countP_cons, List.length_cons, List.filterMap_cons]
    obtain ⟨hk, hq, hr | hr⟩ | ⟨hk, hq, hr⟩ | ⟨hk | hk, ⟨⟨q, hq⟩, hr⟩ | ⟨hq, hr | hr⟩⟩ :=
      f.kind_cases env
    all_goals
      simp [hk, hq, hr]
      omega

end Frame

end QuoteFeed
