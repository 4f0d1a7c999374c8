import QuoteFeed.Proofs.Service.Interest
import QuoteFeed.Proofs.Service.Quotes
import QuoteFeed.Proofs.Text.Parts
import QuoteFeed.Surface.Respond

/-!
# Answers to queries

A base currency resolves to the first live market that trades it in the quote currency
(`Service.resolve?_eq`).  A query keeps each resolved market at its first occurrence
(`pairwise_firstOccurrences`), answers with the quotes of these markets that are at hand, and leaves
interest in all of them.  In the text of a request the base currencies are what stands between
commas (`splitBases_eq`).
-/

namespace QuoteFeed

/-! ### First occurrences -/

@[simp]
theorem mem_firstOccurrences {a : MarketId} {l : List MarketId} :
  a ∈ firstOccurrences l ↔ a ∈ l
  := by
  induction l with
  | nil => rfl
  | cons b l ih =>
    rw [firstOccurrences, List.mem_cons, List.mem_filter, ih, List.mem_cons]
    by_cases h : a = b
    · simp [h]
    · simp [h]

/-- Members are kept in the order in which they occur first. -/
theorem pairwise_firstOccurrences (l : List MarketId) :
  (firstOccurrences l).Pairwise fun a b => l.idxOf a < l.idxOf b
  := by
  induction l with
  | nil => apply List.Pairwise.nil
  | cons c l ih =>
    rw [firstOccurrences, List.pairwise_cons]
    constructor
    · intro b hb
      have hb : b ≠ c := by simpa using (List.mem_filter.1 hb).2
      rw [List.idxOf_cons_self, List.idxOf_cons_ne l hb.symm]
      apply Nat.succ_pos
    · apply (ih.filter _).imp_of_mem
      intro a b ha hb h
      have ha : a ≠ c := by simpa using (List.mem_filter.1 ha).2
      have hb : b ≠ c := by simpa using (List.mem_filter.1 hb).2
      rw [List.idxOf_cons_ne l ha.symm, List.idxOf_cons_ne l hb.symm]
      apply Nat.succ_lt_succ h

/-! ### Base currencies in a text -/

/-- What stands between commas counts without the blanks around it, and blanks alone do not. -/
theorem splitBases_eq (s : String) :
  splitBases s =
    (((s.toList.splitOn ',').map Text.trimChars).filter fun part => part ≠ []).map String.ofList
  := by
  rw [splitBases, splitAtMark_eq, List.filter_map, List.filter_map, List.map_map]
  congr 2
  funext part
  rw [Bool.eq_iff_iff]
  simp

/-! ### The quotes in the cache -/

/-- Every quote in the cache is of the market that it is stored for. -/
def Cache.Keyed (c : Cache MarketId Quote) : Prop :=
  ∀ e ∈ c.entries, e.value.market = e.key

namespace Cache

variable {c : Cache MarketId Quote}

theorem Keyed.get? (h : c.Keyed) {now : Nat} {id : MarketId} {q : Quote}
    (hq : c.get? now id = some q) :
  q.market = id
  := by
  obtain ⟨e, he, rfl⟩ := Option.map_eq_some_iff.1 hq
  obtain ⟨he, -⟩ := Option.filter_eq_some_iff.1 he
  have hk : e.key = id := by simpa using List.find?_some he
  rw [h e (List.mem_of_find?_eq_some he), hk]

theorem Keyed.put (h : c.Keyed) (q : Quote) (expiresAt : Nat) :
  (c.put q.market q expiresAt).Keyed
  := by
  intro e he
  obtain rfl | he := List.mem_cons.1 he
  · rfl
  · apply h e (List.mem_filter.1 he).1

theorem Keyed.purge (h : c.Keyed) (now : Nat) :
  (c.purge now).Keyed
  := by
  intro e he
  apply h e (List.mem_filter.1 he).1

theorem Keyed.receive (h : c.Keyed) (env : Environment) (f : Option Receipt) :
  (c.receive env f).Keyed
  := by
  cases f with
  | none => apply h
  | some f =>
    rw [Cache.receive]
    cases Clock.after? f.time env.settings.quotes.ttl with
    | none => apply h
    | some expiresAt => apply h.put

end Cache

theorem Stream.keyed_deliver {env : Environment} {s : Stream} (h : s.cache.Keyed) (n : Nat)
    (e : SessionEvent) :
  (s.deliver env n e).cache.Keyed
  := by
  rw [deliver]
  split
  · cases e with
    | opened =>
      apply Eq.subst (motive := Cache.Keyed) _ h
      apply (congrArg Desk.cache (books_opened env s n)).symm
    | message text =>
      by_cases hn : s.isCurrent n
      · rw [handleEvent, cache_received hn]
        apply h.receive
      · rw [handleEvent, received, if_neg hn]
        apply h
    | closed reason =>
      apply Eq.subst (motive := Cache.Keyed) _ h
      apply (congrArg Desk.cache (books_closed s n reason)).symm
    | errored reason =>
      apply Eq.subst (motive := Cache.Keyed) _ h
      apply (congrArg Desk.cache (books_closed s n reason)).symm
  · apply h

namespace Service

variable {env : Environment} {s : Service}

theorem keyed_step (h : s.cache.Keyed) (a : Action) :
  (s.step env a).cache.Keyed
  := by
  obtain ⟨c, rfl⟩ | rfl | ⟨d, rfl⟩ | ⟨-, hi⟩ := step_cases env s a
  · have internal (hi : (Stream.Action.act c).Internal) :
        (s.toStream.act env c).cache.Keyed := by
      apply Eq.subst (motive := Cache.Keyed) (Stream.keeps_internal hi).2.symm h
    cases c with
    | event n e => apply Stream.keyed_deliver h
    | lose n => apply h
    | outage broken => apply h
    | _ => apply internal trivial
  · apply h.purge
  · apply h
  · rw [hi.keeps.2]
    apply h

theorem keyed_run (env : Environment) (markets : List Market) (as : List Action) :
  ((initial env markets).run env as).cache.Keyed
  := by
  induction as using List.reverseRecOn with
  | nil => exact fun _ he => absurd he List.not_mem_nil
  | append_singleton as a ih =>
    rw [run_concat]
    apply keyed_step ih

/-! ### Answers -/

/-- A base currency resolves to the first live market that trades it in the quote currency. -/
theorem resolve?_eq (quote base : String) :
  s.resolve? quote base =
    ((s.catalog.current s.now).find? fun m =>
      m.tradable && Text.sameLetters m.base base && Text.sameLetters m.quote quote).map (·.id)
  := by
  have hf (ms : List Market) :
      ((ms.find? fun m => m.tradable).or ms.head?).filter (fun m => m.tradable) =
        ms.find? fun m => m.tradable := by
    cases ht : ms.find? fun m => m.tradable with
    | some m => simp [List.find?_some ht]
    | none =>
      rw [Option.none_or, Option.filter_eq_none_iff]
      intro m hm
      apply List.find?_eq_none.1 ht m (List.mem_of_mem_head? hm)
  rw [resolve?, Catalog.pair?, pairIn?, hf, pricing, List.find?_filter]
  congr 2
  funext m
  cases m.tradable with
  | true => simp [Market.prices]
  | false => simp

/-- A query answers with the quotes at hand of the markets that it resolves. -/
theorem quotes_quotations (quote : String) (bases : List String) :
  (s.quotations env quote bases).1 = (s.resolve quote bases).filterMap (s.cache.get? s.now)
  := by
  have hk := (internalRun_quotations env s quote bases).keeps
  have hq : (s.quotations env quote bases).1 =
      (s.quotations env quote bases).2.quotesOf (s.resolve quote bases) := rfl
  rw [hq, quotesOf, hk.1, hk.2]

/-- What a base currency resolves to is live. -/
theorem isSome_find?_of_mem_resolve {quote : String} {bases : List String} {id : MarketId}
    (h : id ∈ s.resolve quote bases) :
  (s.catalog.find? s.now id).isSome
  := by
  rw [resolve, mem_firstOccurrences, List.mem_filterMap] at h
  obtain ⟨base, -, hm⟩ := h
  rw [resolve?_eq, Option.map_eq_some_iff] at hm
  obtain ⟨m, hm, hid⟩ := hm
  apply Catalog.isSome_find?.2
  use m, List.mem_of_find?_eq_some hm

/-- A query leaves interest in all markets that it resolves. -/
theorem subscribed_quotations (env : Environment) {quote : String} {bases : List String}
    {id : MarketId} (h : id ∈ s.resolve quote bases) :
  id ∈ (s.quotations env quote bases).2.subscribed
  := by
  have hne : (s.resolve quote bases).isEmpty = false := by
    rw [List.isEmpty_eq_false_iff]
    apply List.ne_nil_of_mem h
  rw [quotations, hne, if_neg Bool.false_ne_true, subscribed_syncDemand, wanted, now_syncDemand,
    catalog_syncDemand, IdSet.mem_filter]
  constructor
  · -- the request of now is within the window, however short that is
    apply Demand.mem_active.2
    use ⟨id, s.now⟩
    constructor
    · apply Demand.mem_prune.2
      constructor
      · apply Demand.mem_record.2
        left
        exact ⟨h, rfl⟩
      · simp
    · simp
  · apply isSome_find?_of_mem_resolve h

/-- After every run a query answers with the quotes at hand, at most one for each market, of the
markets that its base currencies resolve to, in the order in which they are named first, and leaves
interest in all of these markets.  A base currency resolves to the first live market that trades it
in the quote currency, if there is one.  In the text of a request the base currencies are what
stands between commas, without the blanks around it, as far as that is not blank. -/
theorem quotations_after_run (env : Environment) (markets : List Market) (as : List Action)
    (quote : String) (bases : List String) :
  let s := (initial env markets).run env as
  let answer := s.quotations env quote bases
  let resolved := bases.filterMap fun base =>
    ((s.catalog.current s.now).find? fun m =>
      m.tradable && Text.sameLetters m.base base && Text.sameLetters m.quote quote).map (·.id)
  (∃ ids : List MarketId,
    (∀ id, id ∈ ids ↔ id ∈ resolved) ∧
      (ids.Pairwise fun a b => resolved.idxOf a < resolved.idxOf b) ∧
      answer.1 = ids.filterMap (s.cache.get? s.now) ∧
      answer.1.map (·.market) = ids.filter (fun id => (s.cache.get? s.now id).isSome) ∧
      ∀ id ∈ ids, id ∈ answer.2.subscribed) ∧
    ∀ query name text, QuotationQuery.parse query = .ok (name, text) →
      let named := (((text.toList.splitOn ',').map Text.trimChars).filter (· ≠ [])).map String.ofList
      let answer := s.quotations env (Text.trim name) named
      s.respondQuotations env query = (.json 200 (.array (answer.1.map Quote.toJson)), answer.2)
  := by
  intro s answer resolved
  have hr : s.resolve quote bases = firstOccurrences resolved := by
    rw [resolve]
    congr 2
    funext base
    apply resolve?_eq
  have hq : answer.1 = (s.resolve quote bases).filterMap (s.cache.get? s.now) :=
    quotes_quotations quote bases
  constructor
  · use s.resolve quote bases
    refine ⟨?_, ?_, hq, ?_, ?_⟩
    · intro id
      rw [hr, mem_firstOccurrences]
    · rw [hr]
      apply pairwise_firstOccurrences
    · have hk := keyed_run env markets as
      rw [hq]
      induction s.resolve quote bases with
      | nil => rfl
      | cons id ids ih =>
        cases hg : s.cache.get? s.now id with
        | none => simpa [hg] using ih
        | some q => simpa [hg, hk.get? hg] using ih
    · intro id hid
      apply subscribed_quotations env hid
  · intro query name text hp named answer
    rw [respondQuotations, hp]
    dsimp only
    rw [splitBases_eq]

end Service

end QuoteFeed
