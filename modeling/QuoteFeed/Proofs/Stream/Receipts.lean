import QuoteFeed.Proofs.Cache
import QuoteFeed.Proofs.Desk
import QuoteFeed.Proofs.Stream.Alike

/-!
# Quotes that arrive

A quote arrives when a frame of the session that is held gives one (`Stream.receipt?`).  As long as
its lifetime does not lead beyond the clock, the session that is held stays heard
(`attentive_act`), and an act stores the quote that arrives by it and changes the cache in no other
way (`cache_act`).
-/

namespace QuoteFeed

/-- The session that is held is heard. -/
def Link.Attentive (l : Link) : Prop :=
  l.state ≠ .disconnected → l.transport.hears l.generation

/-- A quote and when it arrived. -/
structure Receipt where
  quote : Quote
  time : Nat
  deriving DecidableEq

/-- The lifetime of the quote does not lead beyond the clock. -/
def Receipt.Fits (env : Environment) (f : Receipt) : Prop :=
  f.time + env.settings.quotes.ttl < Clock.limit

/-- The cache with a quote stored for its lifetime, if one arrived and fits. -/
def Cache.receive (env : Environment) (c : Cache MarketId Quote) :
    Option Receipt → Cache MarketId Quote
  | none => c
  | some f =>
    ((Clock.after? f.time env.settings.quotes.ttl).map (c.put f.quote.market f.quote)).getD c

theorem Cache.receive_some {env : Environment} {f : Receipt} (h : f.Fits env)
    (c : Cache MarketId Quote) :
  c.receive env (some f) = c.put f.quote.market f.quote (f.time + env.settings.quotes.ttl)
  := by
  have h : f.time + env.settings.quotes.ttl < Clock.limit := h
  rw [receive, Clock.after?, if_pos h]
  rfl

theorem Cache.unique_receive {env : Environment} {c : Cache MarketId Quote} (h : c.Unique)
    (f : Option Receipt) :
  (c.receive env f).Unique
  := by
  cases f with
  | none => apply h
  | some f =>
    rw [receive]
    cases Clock.after? f.time env.settings.quotes.ttl with
    | none => apply h
    | some expiresAt => apply unique_put h

/-- What is read for the other markets stays the same. -/
theorem Cache.get?_receive_of_ne {env : Environment} {m : MarketId} {f : Option Receipt}
    (hf : ∀ k, f = some k → k.quote.market ≠ m) (c : Cache MarketId Quote) (now : Nat) :
  (c.receive env f).get? now m = c.get? now m
  := by
  cases f with
  | none => rfl
  | some f =>
    rw [receive]
    cases Clock.after? f.time env.settings.quotes.ttl with
    | none => rfl
    | some expiresAt =>
      apply get?_put_of_ne
      symm
      apply hf f rfl

namespace Stream

variable {env : Environment} {s s' : Stream}

/-- The quote that arrives by an act: that of a frame of the session that is held. -/
def receipt? (env : Environment) (s : Stream) : Act → Option Receipt
  | .event n (.message text) =>
    if s.isCurrent n then (s.toDesk.quoteOf? env text).map (⟨·, s.now⟩) else none
  | _ => none

/-! ### The session that is held is heard -/

theorem Alike.attentive (h : s'.Alike s) (ha : s.toLink.Attentive) :
  s'.toLink.Attentive
  := by
  intro hs
  rw [h.heard_eq hs, h.generation_eq]
  apply ha
  rw [← h.state_eq]
  apply hs

/-- Acts that are no events of a session leave the session that is held heard. -/
theorem attentive_internal (hc : s.toLink.Coherent) (h : s.toLink.Attentive) {a : Act}
    (ha : ∀ n e, a ≠ .event n e) :
  (s.act env a).toLink.Attentive
  := by
  intro hs
  obtain ⟨hs', hg, hh⟩ | ⟨hd, -⟩ | ⟨-, -, -, hh⟩ := session_act env hc ha
  · rw [hh, hg]
    apply h
    rw [← hs']
    apply hs
  · apply absurd hd hs
  · apply hh

/-- The desk takes a frame if the quote that it gives fits. -/
theorem isSome_process? {n : Nat} {text : String} (hn : s.isCurrent n)
    (hf : ∀ f, s.receipt? env (.event n (.message text)) = some f → f.Fits env) :
  (s.toDesk.process? env text).isSome
  := by
  rw [← Option.isSome_map, Desk.cache_process?]
  rw [receipt?, if_pos hn] at hf
  cases hq : s.toDesk.quoteOf? env text with
  | none => rfl
  | some q =>
    have hfit : s.now + env.settings.quotes.ttl < Clock.limit := hf ⟨q, s.now⟩ (by rw [hq]; rfl)
    rw [Desk.cacheWith?, Clock.after?, if_pos hfit]
    rfl

/-- Every act leaves the session that is held heard, unless the lifetime of a quote leads beyond the
clock. -/
theorem attentive_act (hc : s.toLink.Coherent) (h : s.toLink.Attentive) {a : Act}
    (hf : ∀ f, s.receipt? env a = some f → f.Fits env) :
  (s.act env a).toLink.Attentive
  := by
  by_cases ha : ∃ n e, a = .event n e
  · obtain ⟨n, e, rfl⟩ := ha
    by_cases hn : s.isCurrent n
    · obtain ⟨rfl, hs⟩ := isCurrent_iff.1 hn
      rw [act, deliver, if_pos (h hs)]
      intro hs'
      cases e with
      | opened =>
        obtain ⟨hg, he⟩ := sameHeard_opened env s s.generation
        rw [handleEvent, hg, he]
        apply h hs
      | message text =>
        have hp := isSome_process? hn hf
        rw [handleEvent, generation_received, hears_received, if_neg]
        · apply h hs
        · rintro ⟨-, hnone⟩
          rw [Option.isNone_iff_eq_none.1 hnone] at hp
          contradiction
      | closed reason => apply absurd (state_closed hn reason) hs'
      | errored reason => apply absurd (state_closed hn reason) hs'
    · apply (alike_deliver_stale env hn e).attentive h
  · apply attentive_internal hc h
    rintro n e rfl
    apply ha
    use n, e

/-! ### The cache -/

/-- A frame of the session that is held stores its quote. -/
theorem cache_received {n : Nat} (hn : s.isCurrent n) (text : String) :
  (s.received env n text).cache =
    s.cache.receive env (s.receipt? env (.event n (.message text)))
  := by
  have hr : (s.received env n text).cache =
      ((s.toDesk.process? env text).map (·.2.cache)).getD s.cache := by
    rw [received, if_pos hn]
    cases s.toDesk.process? env text with
    | none => rfl
    | some r => rfl
  rw [hr, Desk.cache_process?, receipt?, if_pos hn]
  cases s.toDesk.quoteOf? env text with
  | none => rfl
  | some q => rfl

/-- An event stores the quote that arrives by it. -/
theorem cache_deliver (h : s.toLink.Attentive) (n : Nat) (e : SessionEvent) :
  (s.deliver env n e).cache = s.cache.receive env (s.receipt? env (.event n e))
  := by
  by_cases hn : s.isCurrent n
  · obtain ⟨rfl, hs⟩ := isCurrent_iff.1 hn
    rw [deliver, if_pos (h hs)]
    cases e with
    | opened => apply congrArg Desk.cache (books_opened env s s.generation)
    | message text => apply cache_received hn
    | closed reason => apply congrArg Desk.cache (books_closed s s.generation reason)
    | errored reason => apply congrArg Desk.cache (books_closed s s.generation reason)
  · have ha : s.receipt? env (.event n e) = none := by
      cases e with
      | message text => apply if_neg hn
      | _ => rfl
    rw [ha]
    apply congrArg Desk.cache (alike_deliver_stale env hn e).books_eq

/-- An act stores the quote that arrives by it, and changes the cache in no other way. -/
theorem cache_act (h : s.toLink.Attentive) (a : Act) :
  (s.act env a).cache = s.cache.receive env (s.receipt? env a)
  := by
  cases a with
  | event n e => apply cache_deliver h
  | lose n => rfl
  | outage broken => rfl
  | start => exact (keeps_internal (a := .act .start) trivial).2
  | stop => exact (keeps_internal (a := .act .stop) trivial).2
  | subscribe id => exact (keeps_internal (a := .act (.subscribe id)) trivial).2
  | unsubscribe id => exact (keeps_internal (a := .act (.unsubscribe id)) trivial).2
  | ping n due => exact (keeps_internal (a := .act (.ping n due)) trivial).2

end Stream

end QuoteFeed
