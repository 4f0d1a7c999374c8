import QuoteFeed.Desk
import QuoteFeed.Proofs.Catalog
import QuoteFeed.Proofs.History
import QuoteFeed.Proofs.Stream.Run
import QuoteFeed.Proofs.Text.Letter

/-!
# What the catalog finds

A catalog answers from the list that a refresh stored.  A name is found by an index of the list, in
which a later market takes the place of an earlier one of its name (`Index.get?_collect`), so the
market of a name is the last that is listed.  A pair of currencies is found in the list itself, and
its market is the first that trades, or the first if none does (`pairIn?_eq_some_iff`).  All of this
ends when the lifetime of the list is over (`Catalog.lookups_of_stored`).
-/

namespace QuoteFeed

/-! ### The index of names -/

/-- Names with their places in a list. -/
abbrev Index := List (MarketId × Nat)

namespace Index

/-- The place of a name. -/
def get? (x : Index) (id : MarketId) : Option Nat :=
  (x.find? fun e => e.1 = id).map (·.2)

/-- The index with a new place of a name. -/
def put (x : Index) (id : MarketId) (i : Nat) : Index :=
  (id, i) :: x.filter fun e => e.1 ≠ id

/-- The index that is collected from markets one after another. -/
def collect (ms : List Market) : Index :=
  ms.zipIdx.foldl (fun x e => x.put e.1.id e.2) []

theorem get?_put (x : Index) (id id' : MarketId) (i : Nat) :
  (x.put id i).get? id' = if id = id' then some i else x.get? id'
  := by
  by_cases h : id = id'
  · simp [get?, put, h]
  · rw [if_neg h, get?, get?, put, List.find?_cons_of_neg (by simpa using h), List.find?_filter]
    congr 2
    funext e
    by_cases he : e.1 = id'
    · simp [he, Ne.symm h]
    · simp [he]

theorem collect_concat (ms : List Market) (m : Market) :
  collect (ms ++ [m]) = (collect ms).put m.id ms.length
  := by
  rw [collect, List.zipIdx_append, List.foldl_append]
  simp [collect]

end Index

/-- A market that is listed last has the last index of its name. -/
theorem lastIndex?_concat (id : MarketId) (ms : List Market) (m : Market) :
  lastIndex? id (ms ++ [m]) = if m.id = id then some ms.length else lastIndex? id ms
  := by
  induction ms with
  | nil => rfl
  | cons m' ms ih =>
    rw [List.cons_append, lastIndex?, ih, lastIndex?]
    by_cases h : m.id = id
    · simp [h]
    · simp [h]

/-- The collected index has the last place of every name. -/
theorem Index.get?_collect (ms : List Market) (id : MarketId) :
  (Index.collect ms).get? id = lastIndex? id ms
  := by
  induction ms using List.reverseRecOn with
  | nil => rfl
  | append_singleton ms m ih => rw [collect_concat, get?_put, ih, lastIndex?_concat]

/-- By its last index a name leads to the last market that has it. -/
theorem getElem?_lastIndex? {id : MarketId} {ms : List Market} {m : Market} :
  ((lastIndex? id ms).bind fun i => ms[i]?) = some m ↔
    m.id = id ∧ Since (fun l => l.id ≠ id) ms m
  := by
  induction ms using List.reverseRecOn with
  | nil => simp [lastIndex?, not_since_nil]
  | append_singleton ms l ih =>
    rw [lastIndex?_concat, since_concat]
    by_cases h : l.id = id
    · rw [if_pos h, Option.bind_some, List.getElem?_concat_length, Option.some_inj]
      constructor
      · rintro rfl
        exact ⟨h, Or.inl rfl⟩
      · rintro ⟨-, rfl | ⟨hn, -⟩⟩
        · rfl
        · contradiction
    · have hsame : ((lastIndex? id ms).bind fun i => (ms ++ [l])[i]?) =
          (lastIndex? id ms).bind fun i => ms[i]? := by
        cases hi : lastIndex? id ms with
        | none => rfl
        | some i => simp [List.getElem?_append_left (lt_of_lastIndex? hi)]
      rw [if_neg h, hsame, ih]
      constructor
      · rintro ⟨hm, hs⟩
        exact ⟨hm, Or.inr ⟨h, hs⟩⟩
      · rintro ⟨hm, rfl | ⟨-, hs⟩⟩
        · contradiction
        · exact ⟨hm, hs⟩

/-! ### Pairs of currencies -/

/-- The market prices one currency in another, up to the case of basic letters. -/
def Market.Prices (base quote : String) (m : Market) : Prop :=
  List.Forall₂ Text.SameLetter m.base.toList base.toList ∧
    List.Forall₂ Text.SameLetter m.quote.toList quote.toList

theorem Market.prices_iff {m : Market} {base quote : String} :
  m.prices base quote = true ↔ m.Prices base quote
  := by
  rw [prices, Bool.and_eq_true, Text.sameLetters_iff, Text.sameLetters_iff, Prices]

/-- The market is the first of the list with a property. -/
def IsFirst (P : Market → Prop) (ms : List Market) (m : Market) : Prop :=
  P m ∧ ∃ earlier later, ms = earlier ++ m :: later ∧ ∀ l ∈ earlier, ¬ P l

theorem find?_eq_some_iff_isFirst {p : Market → Bool} {P : Market → Prop} {ms : List Market}
    {m : Market} (hp : ∀ l, p l = true ↔ P l) :
  ms.find? p = some m ↔ IsFirst P ms m
  := by
  rw [List.find?_eq_some_iff_append, IsFirst, hp]
  simp only [Bool.not_eq_true', ← Bool.not_eq_true, hp]

/-- The market of a pair is the first that trades, or the first if none does. -/
theorem pairIn?_eq_some_iff {base quote : String} {ms : List Market} {m : Market} :
  pairIn? base quote ms = some m ↔
    IsFirst (fun l => l.Prices base quote ∧ l.tradable = true) ms m ∨
      (∀ l ∈ ms, l.Prices base quote → l.tradable = false) ∧ IsFirst (Market.Prices base quote) ms m
  := by
  have htrades (l : Market) : decide (l.prices base quote = true ∧ l.tradable = true) = true ↔
      l.Prices base quote ∧ l.tradable = true := by
    rw [decide_eq_true_eq, Market.prices_iff]
  rw [pairIn?, pricing, List.find?_filter, List.head?_filter, Option.or_eq_some_iff,
    find?_eq_some_iff_isFirst htrades, find?_eq_some_iff_isFirst fun _ => Market.prices_iff,
    List.find?_eq_none]
  simp only [htrades, not_and, Bool.not_eq_true]

/-- A pair has a market if one is listed. -/
theorem isSome_pairIn? {base quote : String} {ms : List Market} :
  (pairIn? base quote ms).isSome ↔ ∃ m ∈ ms, m.Prices base quote
  := by
  rw [pairIn?, Option.isSome_or, Bool.or_eq_true, List.find?_isSome, List.isSome_head?]
  simp only [← Market.prices_iff]
  constructor
  · rintro (⟨m, hm, -⟩ | h)
    · exact ⟨m, List.mem_filter.1 hm⟩
    · obtain ⟨m, hm⟩ := List.exists_mem_of_ne_nil _ h
      exact ⟨m, List.mem_filter.1 hm⟩
  · rintro ⟨m, hm⟩
    exact Or.inr (List.ne_nil_of_mem (List.mem_filter.2 hm))

/-! ### The stored list -/

/-- A refresh that ends with markets stores those that it fetched, until the time between refreshes
and the grace are over. -/
theorem Desk.snapshot_endRefresh {env : Environment} {d d' : Desk} {ms stored : List Market}
    (h : d.endRefresh env (.ok ms) = (.markets stored, d')) :
  stored = ms ∧ d'.catalog.snapshot = some ⟨ms, env.wall d.now,
    d.now + (env.settings.catalog.refresh + env.settings.catalog.grace)⟩
  := by
  rw [endRefresh, Clock.after?] at h
  by_cases hl : d.now + env.settings.catalog.lifetime < Clock.limit
  · rw [if_pos hl] at h
    obtain ⟨hm, rfl⟩ := Prod.mk.inj h
    obtain rfl := Refreshed.markets.inj hm
    rw [← CatalogSettings.lifetime_eq (s := env.settings.catalog) (by omega)]
    exact ⟨rfl, rfl⟩
  · rw [if_neg hl] at h
    cases (Prod.mk.inj h).1

namespace Catalog

/-- All that a catalog says at an instant it says of these markets. -/
structure AnswersFrom (ms : List Market) (c : Catalog) (now : Nat) : Prop where
  current_eq : c.current now = ms
  size_eq : c.size now = ms.length
  isEmpty_iff : c.isEmpty now = true ↔ ms = []
  /-- A name is found by its place in the index. -/
  find?_eq (id : MarketId) :
    c.find? now id = ((Index.collect ms).get? id).bind fun i => ms[i]?
  isSome_find? (id : MarketId) : (c.find? now id).isSome ↔ ∃ m ∈ ms, m.id = id
  /-- The market of a name is the last that has it. -/
  find?_eq_some_iff (id : MarketId) (m : Market) :
    c.find? now id = some m ↔ m.id = id ∧ Since (fun l => l.id ≠ id) ms m
  isSome_pair? (base quote : String) :
    (c.pair? now base quote).isSome ↔ ∃ m ∈ ms, m.Prices base quote
  /-- The market of a pair is the first that trades, or the first if none does. -/
  pair?_eq_some_iff (base quote : String) (m : Market) :
    c.pair? now base quote = some m ↔
      IsFirst (fun l => l.Prices base quote ∧ l.tradable = true) ms m ∨
        (∀ l ∈ ms, l.Prices base quote → l.tradable = false) ∧
          IsFirst (Market.Prices base quote) ms m

variable {c : Catalog} {now : Nat}

/-- The name lookup goes through the index of the live markets. -/
theorem find?_eq (id : MarketId) :
  c.find? now id = (lastIndex? id (c.current now)).bind fun i => (c.current now)[i]?
  := by
  rw [find?, current]
  cases c.live? now with
  | none => rfl
  | some s => rfl

/-- A catalog answers from its live markets. -/
theorem answersFrom_current (c : Catalog) (now : Nat) :
  c.AnswersFrom (c.current now) now
  where
  current_eq := rfl
  size_eq := rfl
  isEmpty_iff := by
    rw [isEmpty, decide_eq_true_eq]
    apply List.length_eq_zero_iff
  find?_eq id := by rw [Index.get?_collect, find?_eq]
  isSome_find? _ := Catalog.isSome_find?
  find?_eq_some_iff id m := by
    rw [find?_eq]
    apply getElem?_lastIndex?
  isSome_pair? _ _ := isSome_pairIn?
  pair?_eq_some_iff _ _ _ := pairIn?_eq_some_iff

/-- Whatever list a refresh stores, with names and pairs in it that come again: until the time
between refreshes and the grace are over, the catalog answers from this list, and from that instant
on everything that it says is empty.  The index of the list leads from a name to a market that has
it. -/
theorem lookups_of_stored {env : Environment} {d d' : Desk} {ms stored : List Market}
    (h : d.endRefresh env (.ok ms) = (.markets stored, d'))
    (hc : c.snapshot = d'.catalog.snapshot) (now : Nat) :
  let expiry := d.now + (env.settings.catalog.refresh + env.settings.catalog.grace)
  stored = ms ∧
    (∀ id i, (Index.collect ms).get? id = some i → ∃ m, ms[i]? = some m ∧ m.id = id) ∧
    (now < expiry → c.AnswersFrom ms now) ∧ (expiry ≤ now → c.AnswersFrom [] now)
  := by
  intro expiry
  obtain ⟨hstored, hs⟩ := Desk.snapshot_endRefresh h
  have hcurrent : c.current now = if now < expiry then ms else [] := by
    rw [current, live?, hc, hs, Option.filter_some]
    by_cases hl : now < expiry
    · simp [Snapshot.isLive, expiry, hl]
    · simp [Snapshot.isLive, expiry, hl]
  refine ⟨hstored, ?_, ?_, ?_⟩
  · intro id i hi
    rw [Index.get?_collect] at hi
    have hlt := lt_of_lastIndex? hi
    have hm : ((lastIndex? id ms).bind fun i => ms[i]?) = some ms[i] := by simp [hi, hlt]
    exact ⟨ms[i], List.getElem?_eq_getElem hlt, (getElem?_lastIndex?.1 hm).1⟩
  · intro hl
    have h := answersFrom_current c now
    rwa [hcurrent, if_pos hl] at h
  · intro hl
    have h := answersFrom_current c now
    rwa [hcurrent, if_neg (Nat.not_lt.2 hl)] at h

/-- A list with a name twice, and with a pair of which the first market does not trade. -/
def relisted : List Market :=
  [⟨⟨"BTC-EUR"⟩, "BTC", "EUR", 100, .zero, false⟩, ⟨⟨"XBT-EUR"⟩, "btc", "eur", 100, .zero, true⟩,
    ⟨⟨"BTC-EUR"⟩, "BTC", "EUR", 10, .zero, true⟩]

/-- The name leads to the third market and the pair to the second, for an hour and five minutes. -/
theorem lookups_of_relisted :
  ∃ d', Desk.initial.endRefresh .standard (.ok relisted) = (.markets relisted, d') ∧
    d'.catalog.find? (Duration.seconds 3899) ⟨"BTC-EUR"⟩ = relisted[2]? ∧
    d'.catalog.pair? (Duration.seconds 3899) "Btc" "Eur" = relisted[1]? ∧
    d'.catalog.AnswersFrom [] (Duration.seconds 3900)
  := by
  have h : Desk.initial.endRefresh .standard (.ok relisted) =
      (.markets relisted, (Desk.initial.endRefresh .standard (.ok relisted)).2) := rfl
  obtain ⟨-, -, hlive, -⟩ := lookups_of_stored h rfl (Duration.seconds 3899)
  obtain ⟨-, -, -, hover⟩ := lookups_of_stored h rfl (Duration.seconds 3900)
  have hlive := hlive (by decide +kernel)
  refine ⟨_, h, ?_, ?_, hover (by decide +kernel)⟩
  · apply (hlive.find?_eq_some_iff _ _).2
    exact ⟨rfl, relisted.take 2, [], rfl, nofun⟩
  · apply (hlive.pair?_eq_some_iff _ _ _).2
    left
    refine ⟨⟨Market.prices_iff.1 (by decide), rfl⟩, relisted.take 1, relisted.drop 2, rfl, ?_⟩
    intro l hl
    obtain rfl := List.mem_singleton.1 hl
    simp

end Catalog

end QuoteFeed
