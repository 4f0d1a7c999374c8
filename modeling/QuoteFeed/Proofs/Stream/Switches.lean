import Mathlib.Data.List.Chain
import QuoteFeed.Proofs.Market.IdSet
import QuoteFeed.Stream.Basic

/-!
# Switching a market on and off

A market is switched on by the message that announces it and off by the one that takes it back.
`switches` reads off the messages of a session what they say about one market, and `Alternating`
says that a market is switched on first and then off and on in turn.
-/

namespace QuoteFeed

/-- What a message says about a market: it is announced, or it is taken back. -/
def Outbound.switch? (id : MarketId) : Outbound → Option Bool
  | .subscribe id' _ _ => if id' = id then some true else none
  | .unsubscribe id' _ => if id' = id then some false else none
  | .ping => none

/-- What messages say about a market, in order. -/
def switches (id : MarketId) (ms : List Outbound) : List Bool :=
  ms.filterMap (Outbound.switch? id)

/-- On comes first, and on and off take turns. -/
def Alternating (l : List Bool) : Prop :=
  (false :: l).IsChain (· ≠ ·)

theorem alternating_nil :
  Alternating []
  := .singleton false

/-- One more switch may follow if it does not repeat the last one. -/
theorem Alternating.concat {l : List Bool} (h : Alternating l) {b : Bool}
    (hb : l.getLast?.getD false ≠ b) :
  Alternating (l ++ [b])
  := by
  rw [Alternating, ← List.cons_append]
  apply List.IsChain.append h (.singleton b)
  intro x hx y hy
  rw [List.getLast?_cons, Option.mem_some_iff] at hx
  rw [List.head?_cons, Option.mem_some_iff] at hy
  rw [← hx, ← hy]
  apply hb

/-- If the last switch is on exactly when the next one is off, it is not repeated. -/
theorem getLast?_ne {l : List Bool} {b : Bool} (h : l.getLast? = some true ↔ b = false) :
  l.getLast?.getD false ≠ b
  := by
  cases b with
  | false => simp [h.2 rfl]
  | true =>
    cases hl : l.getLast? with
    | none => simp
    | some c =>
      cases c with
      | false => simp
      | true => simp [hl] at h

/-! ### The switches of messages -/

variable (env : Environment) (id : MarketId)

theorem switches_append (ms ks : List Outbound) :
  switches id (ms ++ ks) = switches id ms ++ switches id ks
  := List.filterMap_append

@[simp]
theorem switches_ping :
  switches id [.ping] = []
  := rfl

theorem switches_subscribe (id' : MarketId) :
  switches id [Stream.subscribeMessage env id'] = if id = id' then [true] else []
  := by
  rw [switches, List.filterMap_cons, Stream.subscribeMessage, Outbound.switch?]
  by_cases h : id = id'
  · simp [h]
  · simp [h, Ne.symm h]

theorem switches_unsubscribe (id' : MarketId) :
  switches id [Stream.unsubscribeMessage env id'] = if id = id' then [false] else []
  := by
  rw [switches, List.filterMap_cons, Stream.unsubscribeMessage, Outbound.switch?]
  by_cases h : id = id'
  · simp [h]
  · simp [h, Ne.symm h]

/-- Of messages about different markets, at most one is about a given market. -/
theorem switches_map {message : MarketId → Outbound} {b : Bool}
    (hm : ∀ id', switches id [message id'] = if id = id' then [b] else []) {l : List MarketId}
    (hl : l.Nodup) :
  switches id (l.map message) = if id ∈ l then [b] else []
  := by
  induction l with
  | nil => rfl
  | cons id' l ih =>
    obtain ⟨hn, hl⟩ := List.nodup_cons.1 hl
    rw [List.map_cons, ← List.singleton_append, switches_append, hm, ih hl]
    by_cases h : id = id'
    · subst h
      simp [hn]
    · simp [h]

theorem switches_subscribes (s : IdSet) :
  switches id (s.ids.map (Stream.subscribeMessage env)) = if id ∈ s then [true] else []
  := switches_map id (switches_subscribe env id) s.nodup_ids

theorem switches_unsubscribes (s : IdSet) :
  switches id (s.ids.map (Stream.unsubscribeMessage env)) = if id ∈ s then [false] else []
  := switches_map id (switches_unsubscribe env id) s.nodup_ids

end QuoteFeed
