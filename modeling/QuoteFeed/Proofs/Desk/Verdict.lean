import QuoteFeed.Proofs.Counts
import QuoteFeed.Proofs.Stream.Run
import QuoteFeed.Proofs.Time.Timestamp

/-!
# The verdict on a frame

A frame gives a quote (`Desk.Gives`), or answers a ping (`Desk.Answers`), or is refused for the
first reason that applies (`Desk.Refuses`).  These are said of the event of the frame and of the
live markets, and one of them holds of every frame.  The desk does accordingly, and apart from its report
it changes in nothing else (`Desk.verdict_process?`).
-/

namespace QuoteFeed

open Time (Timestamp)

/-- The market of an event. -/
def Inbound.market? : Inbound → Option MarketId
  | .ticker id .. => some id
  | .orderBook id .. => some id
  | .pong _ => none

/-- The counters after the answer to a ping at a moment. -/
def Keepalive.acknowledged (k : Keepalive) (t : Timestamp) : Keepalive :=
  { k with
    acks := k.acks + 1
    lastAck := some t }

namespace Desk

/-- The time of a quote: the time that its event reports, if there is such a moment, and otherwise
the time of its arrival. -/
inductive SourceTime (arrival : Timestamp) (ts : Option Int) : Timestamp → Prop where
  | reported {ms : Int} {t : Timestamp} (hts : ts = some ms) (h : t.IsMillis ms) :
    SourceTime arrival ts t
  | arrival (h : ∀ ms, ts = some ms → ∀ t : Timestamp, ¬ t.IsMillis ms) :
    SourceTime arrival ts arrival

/-- The frame is a ticker or a book of a live market, and gives the quote.  The bid of a ticker is
what a seller receives, and its ask what a buyer pays.  Those of a book are the averages of its
sides. -/
inductive Gives (env : Environment) (d : Desk) (text : String) : Quote → Prop where
  | ticker {id : MarketId} {ts : Option Int} {buy sell : Decimal} {time : Timestamp}
      (h : Inbound.decode text = .ok (.ticker id ts buy sell)) (hl : d.Lists id)
      (ht : SourceTime (env.wall d.now) ts time) :
    Gives env d text ⟨id, sell, buy, time, env.wall d.now⟩
  | orderBook {id : MarketId} {ts : Option Int} {asks bids : List Level} {bid ask : Decimal}
      {time : Timestamp} (h : Inbound.decode text = .ok (.orderBook id ts asks bids))
      (hl : d.Lists id) (hbid : averagePrice? bids = some bid)
      (hask : averagePrice? asks = some ask) (ht : SourceTime (env.wall d.now) ts time) :
    Gives env d text ⟨id, bid, ask, time, env.wall d.now⟩

/-- The frame is the answer to a ping. -/
def Answers (text : String) : Prop :=
  ∃ ts, Inbound.decode text = .ok (.pong ts)

/-- The first reason to refuse a frame: it is no event, or one of a type that is not known, or its
market is not live, or a side of its book has no price. -/
inductive Refuses (d : Desk) (text : String) : DropReason → Prop where
  | malformed {e : FrameError} (h : Inbound.decode text = .error e)
      (he : ∀ kind, e ≠ .unknownType kind) :
    Refuses d text .malformed
  | unsupportedType {kind : String} (h : Inbound.decode text = .error (.unknownType kind)) :
    Refuses d text .unsupportedType
  | unknownMarket {event : Inbound} {id : MarketId} (h : Inbound.decode text = .ok event)
      (hm : event.market? = some id) (hl : ¬ d.Lists id) :
    Refuses d text .unknownMarket
  | emptyBook {id : MarketId} {ts : Option Int} {asks bids : List Level}
      (h : Inbound.decode text = .ok (.orderBook id ts asks bids)) (hl : d.Lists id)
      (hp : averagePrice? bids = none ∨ averagePrice? asks = none) :
    Refuses d text .emptyBook

variable {env : Environment} {d d' : Desk} {text : String} {outcome : Outcome} {q : Quote}

/-! ### What is said of a frame and what is computed of it -/

theorem sourceTime_iff {arrival t : Timestamp} {ts : Option Int} :
  SourceTime arrival ts t ↔ (ts.bind Timestamp.ofMillis?).getD arrival = t
  := by
  constructor
  · intro h
    cases h with
    | reported hts h =>
      rw [hts, Option.bind_some, Timestamp.ofMillis?_eq_some_iff.2 h, Option.getD_some]
    | arrival h =>
      have hnone : ts.bind Timestamp.ofMillis? = none := by
        rw [Option.bind_eq_none_iff]
        intro ms hts
        rw [Option.eq_none_iff_forall_ne_some]
        intro t ht
        exact h ms hts t (Timestamp.ofMillis?_eq_some_iff.1 ht)
      rw [hnone, Option.getD_none]
  · rintro rfl
    cases hms : ts.bind Timestamp.ofMillis? with
    | some t =>
      obtain ⟨ms, hts, ht⟩ := Option.bind_eq_some_iff.1 hms
      exact .reported hts (Timestamp.ofMillis?_eq_some_iff.1 ht)
    | none =>
      apply SourceTime.arrival
      intro ms hts t ht
      rw [hts, Option.bind_some, Timestamp.ofMillis?_eq_some_iff.2 ht] at hms
      contradiction

theorem quote?_eq_some_iff {id : MarketId} {ts : Option Int} {bid ask : Decimal} :
  d.quote? env id ts bid ask = some q ↔
    d.Lists id ∧ ∃ time, SourceTime (env.wall d.now) ts time ∧
      q = ⟨id, bid, ask, time, env.wall d.now⟩
  := by
  rw [quote?, Option.ite_none_right_eq_some, Option.some.injEq]
  simp [sourceTime_iff, eq_comm]

theorem gives_iff :
  d.Gives env text q ↔ d.quoteOf? env text = some q
  := by
  rw [quoteOf?]
  constructor
  · intro h
    cases h with
    | ticker h hl ht =>
      rw [h]
      exact quote?_eq_some_iff.2 ⟨hl, _, ht, rfl⟩
    | orderBook h hl hbid hask ht =>
      rw [h]
      simp only [quoteIn?, hbid, hask]
      exact quote?_eq_some_iff.2 ⟨hl, _, ht, rfl⟩
  · intro h
    cases hd : Inbound.decode text with
    | error e =>
      rw [hd] at h
      contradiction
    | ok event =>
      rw [hd] at h
      cases event with
      | ticker id ts buy sell =>
        obtain ⟨hl, time, ht, rfl⟩ := quote?_eq_some_iff.1 h
        exact .ticker hd hl ht
      | orderBook id ts asks bids =>
        simp only [quoteIn?] at h
        split at h
        · obtain ⟨hl, time, ht, rfl⟩ := quote?_eq_some_iff.1 h
          exact .orderBook hd hl ‹_› ‹_› ht
        · contradiction
      | pong ts => contradiction

theorem reasonFor?_eq_some_iff {id : MarketId} {priced : Bool} {reason : DropReason} :
  d.reasonFor? id priced = some reason ↔
    ¬ d.Lists id ∧ reason = .unknownMarket ∨
      d.Lists id ∧ priced = false ∧ reason = .emptyBook
  := by
  rw [reasonFor?]
  by_cases hl : d.Lists id
  · cases priced <;> simp [hl, eq_comm]
  · simp [hl, eq_comm]

theorem refuses_iff {reason : DropReason} :
  d.Refuses text reason ↔ d.reason? text = some reason
  := by
  rw [reason?]
  constructor
  · intro h
    cases h with
    | @malformed e h he =>
      rw [h]
      cases e with
      | unknownType kind => exact absurd rfl (he kind)
      | _ => rfl
    | unsupportedType h => rw [h]
    | @unknownMarket event id h hm hl =>
      rw [h]
      cases event with
      | pong ts => contradiction
      | _ =>
        obtain rfl := Option.some.inj hm
        exact reasonFor?_eq_some_iff.2 (Or.inl ⟨hl, rfl⟩)
    | emptyBook h hl hp =>
      rw [h]
      apply reasonFor?_eq_some_iff.2
      right
      refine ⟨hl, ?_, rfl⟩
      obtain hp | hp := hp
      · rw [hp, Option.isSome_none, Bool.false_and]
      · rw [hp, Option.isSome_none, Bool.and_false]
  · intro h
    cases hd : Inbound.decode text with
    | error e =>
      rw [hd] at h
      cases e with
      | unknownType kind =>
        obtain rfl := Option.some.inj h
        exact .unsupportedType hd
      | _ =>
        obtain rfl := Option.some.inj h
        exact .malformed hd (fun kind => by simp)
    | ok event =>
      rw [hd] at h
      cases event with
      | ticker id ts buy sell =>
        obtain ⟨hl, rfl⟩ | ⟨-, hp, -⟩ := reasonFor?_eq_some_iff.1 h
        · exact .unknownMarket hd rfl hl
        · contradiction
      | orderBook id ts asks bids =>
        obtain ⟨hl, rfl⟩ | ⟨hl, hp, rfl⟩ := reasonFor?_eq_some_iff.1 h
        · exact .unknownMarket hd rfl hl
        · apply Refuses.emptyBook hd hl
          simpa only [Bool.and_eq_false_iff, Option.isSome_eq_false_iff, Option.isNone_iff_eq_none]
            using hp
      | pong ts => contradiction

theorem answers_iff :
  Answers text ↔ kindOf text = .pong
  := by
  rw [Answers, kindOf]
  cases Inbound.decode text with
  | error e => simp
  | ok event => cases event <;> simp [eventType]

/-- Every frame gives a quote, answers a ping or is refused. -/
theorem gives_or_answers_or_refuses (env : Environment) (d : Desk) (text : String) :
  (∃ q, d.Gives env text q) ∨ Answers text ∨ ∃ reason, d.Refuses text reason
  := by
  simp only [gives_iff, answers_iff, refuses_iff]
  obtain ⟨-, -, hr | hr⟩ | ⟨hk, -, -⟩ | ⟨-, ⟨hq, -⟩ | ⟨-, hr | hr⟩⟩ :=
    Frame.kind_cases env ⟨d, text⟩
  · exact Or.inr (Or.inr ⟨_, hr⟩)
  · exact Or.inr (Or.inr ⟨_, hr⟩)
  · exact Or.inr (Or.inl hk)
  · exact Or.inl hq
  · exact Or.inr (Or.inr ⟨_, hr⟩)
  · exact Or.inr (Or.inr ⟨_, hr⟩)

theorem Gives.not_answers (h : d.Gives env text q) :
  ¬ Answers text
  := by
  rintro ⟨ts, ha⟩
  cases h with
  | ticker h => cases h.symm.trans ha
  | orderBook h => cases h.symm.trans ha

/-- A frame that is refused does nothing else. -/
theorem Refuses.exclusive {reason : DropReason} (h : d.Refuses text reason) (env : Environment) :
  ¬ Answers text ∧ ∀ q, ¬ d.Gives env text q
  := by
  rw [refuses_iff] at h
  simp only [gives_iff, answers_iff]
  obtain ⟨hk, hq, -⟩ | ⟨-, -, hr⟩ | ⟨hk, ⟨-, hr⟩ | ⟨hq, -⟩⟩ := Frame.kind_cases env ⟨d, text⟩
  · have hk : kindOf text = .other := hk
    exact ⟨by simp [hk], fun q e => by cases hq.symm.trans e⟩
  · cases h.symm.trans hr
  · cases h.symm.trans hr
  · have hk : kindOf text = .ticker ∨ kindOf text = .orderBook := hk
    exact ⟨by obtain hk | hk := hk <;> simp [hk], fun q e => by cases hq.symm.trans e⟩

/-! ### What the desk does -/

theorem keepalive_take? {id : MarketId} {ts : Option Int} {prices : Option (Decimal × Decimal)}
    (h : d.take? env id ts prices = some (outcome, d')) :
  d'.keepalive = d.keepalive
  := by
  rw [take?.eq_def] at h
  split at h
  · obtain ⟨-, rfl⟩ := Prod.mk.inj (Option.some.inj h)
    rfl
  · split at h
    · obtain ⟨-, rfl⟩ := Prod.mk.inj (Option.some.inj h)
      rfl
    · obtain ⟨cache, -, hc⟩ := Option.map_eq_some_iff.1 h
      obtain ⟨-, rfl⟩ := Prod.mk.inj hc
      rfl

/-- The prices of a live market make a quote. -/
theorem quoted_take? {id : MarketId} {ts : Option Int} {prices : Decimal × Decimal}
    (h : d.take? env id ts (some prices) = some (outcome, d')) (hl : d.Lists id) :
  outcome = .quoted id
  := by
  rw [take?.eq_def, if_neg (fun hn => isNone_find?.1 hn hl)] at h
  obtain ⟨cache, -, hc⟩ := Option.map_eq_some_iff.1 h
  exact (Prod.mk.inj hc).1.symm

section Process

variable (h : d.process? env text = some (outcome, d'))
include h

theorem exists_takeEvent? {event : Inbound} (hd : Inbound.decode text = .ok event) :
  ∃ e, d.takeEvent? env event = some (outcome, e) ∧ e.keepalive = d'.keepalive
  := by
  rw [process?, hd] at h
  obtain ⟨⟨outcome', e⟩, he, hp⟩ := Option.map_eq_some_iff.1 h
  obtain ⟨rfl, rfl⟩ := Prod.mk.inj hp
  exact ⟨e, he, rfl⟩

theorem quoted_process? (hq : d.Gives env text q) :
  outcome = .quoted q.market
  := by
  cases hq with
  | ticker hd hl ht =>
    obtain ⟨e, he, -⟩ := exists_takeEvent? h hd
    rw [takeEvent?] at he
    exact quoted_take? he hl
  | orderBook hd hl hbid hask ht =>
    obtain ⟨e, he, -⟩ := exists_takeEvent? h hd
    rw [takeEvent?, bookPrices?, hbid, hask] at he
    exact quoted_take? he hl

theorem acknowledged_process? (ha : Answers text) :
  outcome = .acknowledged ∧ d'.keepalive = d.keepalive.acknowledged (env.wall d.now)
  := by
  obtain ⟨ts, hd⟩ := ha
  obtain ⟨e, he, hk⟩ := exists_takeEvent? h hd
  obtain ⟨rfl, rfl⟩ := Prod.mk.inj (Option.some.inj he)
  exact ⟨rfl, hk.symm⟩

theorem dropped_process? {reason : DropReason} (hr : d.Refuses text reason) :
  outcome = .dropped reason
  := by
  have hreason := (counts_process? h).1
  rw [refuses_iff.1 hr] at hreason
  cases outcome with
  | dropped r => rw [Option.some.inj hreason]
  | _ => contradiction

theorem keepalive_process? (ha : ¬ Answers text) :
  d'.keepalive = d.keepalive
  := by
  cases hd : Inbound.decode text with
  | error e =>
    rw [process?, hd] at h
    obtain ⟨-, rfl⟩ := Prod.mk.inj (Option.some.inj h)
    rfl
  | ok event =>
    obtain ⟨e, he, hk⟩ := exists_takeEvent? h hd
    cases event with
    | ticker id ts buy sell =>
      rw [takeEvent?] at he
      rw [← hk, keepalive_take? he]
    | orderBook id ts asks bids =>
      rw [takeEvent?] at he
      rw [← hk, keepalive_take? he]
    | pong ts => exact absurd ⟨ts, hd⟩ ha

/-- The cache takes the quote of the frame, and is left as it was if there is none. -/
theorem cache_of_process? (hfits : d.now + env.settings.quotes.ttl < Clock.limit) :
  (∀ q, d.Gives env text q →
      d'.cache = d.cache.put q.market q (d.now + env.settings.quotes.ttl)) ∧
    ((∀ q, ¬ d.Gives env text q) → d'.cache = d.cache)
  := by
  have hc : (d.process? env text).map (·.2.cache) = d.cacheWith? env (d.quoteOf? env text) :=
    cache_process? text
  rw [h, Option.map_some] at hc
  constructor
  · intro q hq
    rw [gives_iff.1 hq, cacheWith?, Clock.after?, if_pos hfits] at hc
    exact Option.some.inj hc
  · intro hq
    rw [Option.eq_none_iff_forall_ne_some.2 fun q e => hq q (gives_iff.2 e)] at hc
    exact Option.some.inj hc

end Process

theorem exists_process? (text : String) (hfits : d.now + env.settings.quotes.ttl < Clock.limit) :
  ∃ outcome d', d.process? env text = some (outcome, d')
  := by
  have hc : (d.process? env text).map (·.2.cache) = d.cacheWith? env (d.quoteOf? env text) :=
    cache_process? text
  have hs : (d.process? env text).isSome := by
    rw [← Option.isSome_map, hc]
    cases d.quoteOf? env text with
    | none => rfl
    | some q => rw [cacheWith?, Clock.after?, if_pos hfits]; rfl
  obtain ⟨⟨outcome, d'⟩, h⟩ := Option.isSome_iff_exists.1 hs
  exact ⟨outcome, d', h⟩

/-- As long as the lifetime of a quote stays within the clock, the desk takes every frame, and does
one of three things.  A frame that gives a quote is quoted, and the cache stores the quote of its
market for its lifetime.  A frame that answers a ping is acknowledged and counted at its time.  A
frame that is refused is dropped for that reason, and leaves the cache and the counters as they
were.  The desk does none of these to any other frame. -/
theorem verdict_process? (env : Environment) (d : Desk) (text : String)
    (hfits : d.now + env.settings.quotes.ttl < Clock.limit) :
  ∃ outcome d', d.process? env text = some (outcome, d') ∧
    (d'.now = d.now ∧ d'.catalog = d.catalog) ∧
    ((∃ q, d.Gives env text q ∧ outcome = .quoted q.market ∧
        d'.cache = d.cache.put q.market q (d.now + env.settings.quotes.ttl) ∧
        d'.keepalive = d.keepalive)
      ∨ (Answers text ∧ outcome = .acknowledged ∧ d'.cache = d.cache ∧
        d'.keepalive = d.keepalive.acknowledged (env.wall d.now))
      ∨ ∃ reason, d.Refuses text reason ∧ outcome = .dropped reason ∧ d'.cache = d.cache ∧
        d'.keepalive = d.keepalive) ∧
    (∀ q, d.Gives env text q → outcome = .quoted q.market) ∧
    (Answers text → outcome = .acknowledged) ∧
    ∀ reason, d.Refuses text reason → outcome = .dropped reason
  := by
  obtain ⟨outcome, d', h⟩ := exists_process? text hfits
  have hsetting := Prod.mk.inj (setting_process? h)
  obtain ⟨hstored, hkept⟩ := cache_of_process? h hfits
  refine ⟨outcome, d', h, hsetting, ?_, fun q => quoted_process? h,
    fun ha => (acknowledged_process? h ha).1, fun reason => dropped_process? h⟩
  obtain ⟨q, hq⟩ | ha | ⟨reason, hr⟩ := gives_or_answers_or_refuses env d text
  · left
    exact ⟨q, hq, quoted_process? h hq, hstored q hq, keepalive_process? h hq.not_answers⟩
  · right
    left
    obtain ⟨hout, hk⟩ := acknowledged_process? h ha
    exact ⟨ha, hout, hkept fun q hq => hq.not_answers ha, hk⟩
  · right
    right
    obtain ⟨ha, hq⟩ := hr.exclusive env
    exact ⟨reason, hr, dropped_process? h hr, hkept hq, keepalive_process? h ha⟩

/-- A desk with one live market. -/
def eurDesk : Desk :=
  let market : Market := ⟨⟨"BTC-EUR"⟩, "BTC", "EUR", 100, .zero, true⟩
  { initial with catalog := ⟨some ⟨[market], .epoch, Duration.seconds 3900⟩, false⟩ }

/-- A ticker of the market, of a time of its own. -/
def eurText : String :=
  "\x7b\"type\":\"ticker\",\"id\":\"BTC-EUR\",\"ts\":1700000000500," ++
    "\"data\":\x7b\"buy\":2.5,\"sell\":1.5\x7d\x7d"

/-- The quote of the ticker, at its own time. -/
def eurQuote : Quote :=
  { market := ⟨"BTC-EUR"⟩
    bid := ⟨false, 15, 1, Nat.le_of_ble_eq_true rfl, Nat.le_of_ble_eq_true rfl⟩
    ask := ⟨false, 25, 1, Nat.le_of_ble_eq_true rfl, Nat.le_of_ble_eq_true rfl⟩
    sourceTime := ⟨1700000000, 500000000, by decide, by decide, by decide⟩
    ingestedAt := .epoch }

/-- The desk quotes the market, and stores the quote for its lifetime. -/
theorem verdict_of_ticker :
  eurDesk.now + Environment.standard.settings.quotes.ttl < Clock.limit ∧
    ∃ d', eurDesk.process? .standard eurText = some (.quoted ⟨"BTC-EUR"⟩, d') ∧
      d'.cache = eurDesk.cache.put ⟨"BTC-EUR"⟩ eurQuote
        (eurDesk.now + Environment.standard.settings.quotes.ttl)
  := by
  have hfits : eurDesk.now + Environment.standard.settings.quotes.ttl < Clock.limit := by
    decide +kernel
  have hd : Inbound.decode eurText =
      .ok (.ticker ⟨"BTC-EUR"⟩ (some 1700000000500) eurQuote.ask eurQuote.bid) := by
    decide +kernel
  have hgives : eurDesk.Gives .standard eurText eurQuote :=
    .ticker hd (by decide +kernel) (.reported rfl ⟨rfl, by decide⟩)
  use hfits
  obtain ⟨outcome, d', h, -, hcases, -⟩ := verdict_process? .standard eurDesk eurText hfits
  obtain ⟨q, hq, rfl, hc, -⟩ | ⟨ha, -⟩ | ⟨reason, hr, -⟩ := hcases
  · obtain rfl := Option.some.inj ((gives_iff.1 hq).symm.trans (gives_iff.1 hgives))
    exact ⟨d', h, hc⟩
  · exact absurd ha hgives.not_answers
  · exact absurd hgives ((hr.exclusive _).2 _)

end Desk

end QuoteFeed
