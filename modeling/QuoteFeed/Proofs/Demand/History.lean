import QuoteFeed.Proofs.Demand
import QuoteFeed.Proofs.History
import QuoteFeed.Proofs.Market.IdSet

/-!
# The history of demand

Which markets are in demand is determined by the calls before.  What is remembered is the request of
each market that was applied last, as long as no lookup since then found it out of the window
(`Demand.Lasts`), and the demand is followed along its calls by this (`Demand.Reflects`).

On a clock that does not go back a lookup answers with the markets that were requested within the
window, as if nobody had looked before (`Demand.active_after_run`).  Calls that read the clock
before they are applied may come in another order than their times.  Then a request counts as long
as no older one is applied after it (`Demand.mem_active_after_run`).
-/

namespace QuoteFeed.Demand

/-! ### Calls -/

/-- A call on the demand at a moment. -/
inductive Call where
  /-- Markets are requested. -/
  | record (now : Nat) (markets : List MarketId)
  /-- The markets in demand are looked up, and the others are forgotten. -/
  | active (now : Nat)
  deriving DecidableEq

namespace Call

/-- The moment of a call. -/
def now : Call → Nat
  | .record now _ => now
  | .active now => now

/-- The call requests the market. -/
def Requests (m : MarketId) : Call → Prop
  | .record _ markets => m ∈ markets
  | .active _ => False

/-- The call looks nothing up beyond the instant. -/
def LooksBy (last : Nat) : Call → Prop
  | .record .. => True
  | .active now => now ≤ last

/-- The call requests markets. -/
def isRecord : Call → Bool
  | .record .. => true
  | .active _ => false

instance (m : MarketId) : DecidablePred (Requests m)
  | .record _ markets => inferInstanceAs (Decidable (m ∈ markets))
  | .active _ => inferInstanceAs (Decidable False)

instance (last : Nat) : DecidablePred (LooksBy last)
  | .record .. => inferInstanceAs (Decidable True)
  | .active now => inferInstanceAs (Decidable (now ≤ last))

theorem LooksBy.mono {c : Call} {t t' : Nat} (h : c.LooksBy t) (ht : t ≤ t') :
  c.LooksBy t'
  := by
  cases c with
  | record now markets => trivial
  | active now => apply Nat.le_trans h ht

end Call

/-- What a call answers, a lookup the markets in demand, and the demand after it. -/
def call (d : Demand) : Call → Option IdSet × Demand
  | .record now markets => (none, d.record now markets)
  | .active now => (some (d.active now), d.prune now)

/-- The demand after calls. -/
def run (d : Demand) (calls : List Call) : Demand :=
  calls.foldl (fun d c => (d.call c).2) d

variable {d : Demand} {calls : List Call} {c : Call} {window now : Nat} {m : MarketId} {r : Request}

theorem run_concat (d : Demand) (calls : List Call) (c : Call) :
  d.run (calls ++ [c]) = ((d.run calls).call c).2
  := List.foldl_append

/-! ### What is remembered -/

/-- Every market has at most one request. -/
def Unique (d : Demand) : Prop :=
  (d.requests.map (·.market)).Nodup

/-- The request is the last of its market, and no lookup since found it out of the window. -/
def Lasts (window : Nat) (calls : List Call) (r : Request) : Prop :=
  ∃ markets, r.market ∈ markets ∧
    Since (fun c => ¬ c.Requests r.market ∧ c.LooksBy (r.time + window)) calls
      (.record r.time markets)

/-- The requests that are remembered are those that last. -/
structure Reflects (window : Nat) (calls : List Call) (d : Demand) : Prop where
  window_eq : d.window = window
  unique : d.Unique
  mem_iff (r : Request) : r ∈ d.requests ↔ Lasts window calls r

theorem Unique.request (h : d.Unique) (now : Nat) (m : MarketId) :
  (d.request now m).Unique
  := by
  rw [Unique, Demand.request, List.map_cons, List.nodup_cons]
  constructor
  · simp
  · apply List.Nodup.sublist (List.filter_sublist.map _) h

theorem Unique.record (h : d.Unique) (now : Nat) (ms : List MarketId) :
  (d.record now ms).Unique
  := by
  induction ms generalizing d with
  | nil => exact h
  | cons m ms ih => apply ih (h.request now m)

theorem Unique.prune (h : d.Unique) (now : Nat) :
  (d.prune now).Unique
  := List.Nodup.sublist (List.filter_sublist.map _) h

/-- There are as many requests as markets. -/
theorem Unique.size_markets (h : d.Unique) :
  d.markets.size = d.size
  := by
  rw [markets, IdSet.size_ofList h, List.length_map, size]

theorem lasts_concat_record {ms : List MarketId} :
  Lasts window (calls ++ [.record now ms]) r ↔
    (r.market ∈ ms ∧ r.time = now) ∨ (Lasts window calls r ∧ r.market ∉ ms)
  := by
  simp only [Lasts, since_concat, Call.record.injEq, Call.Requests, Call.LooksBy, and_true]
  constructor
  · rintro ⟨ms', hm, ⟨rfl, rfl⟩ | ⟨hn, hs⟩⟩
    · exact Or.inl ⟨hm, rfl⟩
    · exact Or.inr ⟨⟨ms', hm, hs⟩, hn⟩
  · rintro (⟨hm, rfl⟩ | ⟨⟨ms', hm, hs⟩, hn⟩)
    · exact ⟨ms, hm, Or.inl ⟨rfl, rfl⟩⟩
    · exact ⟨ms', hm, Or.inr ⟨hn, hs⟩⟩

theorem lasts_concat_active :
  Lasts window (calls ++ [.active now]) r ↔ Lasts window calls r ∧ now ≤ r.time + window
  := by
  simp only [Lasts, since_concat, reduceCtorEq, Call.Requests, Call.LooksBy, false_or,
    not_false_eq_true, true_and]
  constructor
  · rintro ⟨ms, hm, hn, hs⟩
    exact ⟨⟨ms, hm, hs⟩, hn⟩
  · rintro ⟨⟨ms, hm, hs⟩, hn⟩
    exact ⟨ms, hm, hn, hs⟩

theorem reflects_empty (window : Nat) :
  Reflects window [] (empty window)
  where
  window_eq := rfl
  unique := List.nodup_nil
  mem_iff r := by simp [empty, Lasts, not_since_nil]

theorem Reflects.call (h : Reflects window calls d) (c : Call) :
  Reflects window (calls ++ [c]) (d.call c).2
  := by
  cases c with
  | record now ms =>
    refine ⟨window_record.trans h.window_eq, h.unique.record now ms, ?_⟩
    intro r
    rw [lasts_concat_record, ← h.mem_iff]
    apply mem_record
  | active now =>
    refine ⟨h.window_eq, h.unique.prune now, ?_⟩
    intro r
    rw [lasts_concat_active, ← h.mem_iff, ← h.window_eq, ← Nat.sub_le_iff_le_add']
    apply mem_prune

theorem Reflects.run (h : Reflects window calls d) (later : List Call) :
  Reflects window (calls ++ later) (d.run later)
  := by
  induction later using List.reverseRecOn with
  | nil => rwa [List.append_nil]
  | append_singleton later c ih =>
    rw [run_concat, ← List.append_assoc]
    apply ih.call

/-- A lookup finds the markets whose last request is within the window. -/
theorem Reflects.mem_active (h : Reflects window calls d) :
  m ∈ d.active now ↔ ∃ t, Lasts window calls ⟨m, t⟩ ∧ now ≤ t + window
  := by
  rw [Demand.mem_active, h.window_eq]
  constructor
  · rintro ⟨⟨m, t⟩, hr, rfl, hw⟩
    exact ⟨t, (h.mem_iff _).1 hr, Nat.sub_le_iff_le_add'.1 hw⟩
  · rintro ⟨t, hr, hw⟩
    exact ⟨⟨m, t⟩, (h.mem_iff _).2 hr, rfl, Nat.sub_le_iff_le_add'.2 hw⟩

theorem reflects_run (window : Nat) (calls : List Call) :
  Reflects window calls ((empty window).run calls)
  := (reflects_empty window).run calls

/-- What is not remembered is not found before it is requested. -/
theorem not_mem_active_run (h : ∀ r ∈ d.requests, r.market ≠ m)
    (hn : ∀ c ∈ calls, ¬ c.Requests m) :
  m ∉ (d.run calls).active now
  := by
  induction calls generalizing d with
  | nil =>
    rintro hm
    obtain ⟨r, hr, e, -⟩ := mem_active.1 hm
    apply h r hr e
  | cons c calls ih =>
    obtain ⟨hc, hn⟩ := List.forall_mem_cons.1 hn
    apply ih _ hn
    intro r hr e
    cases c with
    | record t ms =>
      obtain ⟨hm, -⟩ | ⟨hr, -⟩ := mem_record.1 hr
      · apply hc (e ▸ hm)
      · apply h r hr e
    | active t => apply h r (mem_prune.1 hr).1 e

/-! ### What a lookup finds -/

/-- A request lasts, or a later one does, if no older request of its market is applied after it. -/
theorem exists_lasts {t : Nat} {markets : List MarketId} (hm : m ∈ markets)
    (h : Since (fun c => (c.Requests m → t ≤ c.now) ∧ c.LooksBy (t + window)) calls
      (.record t markets)) :
  ∃ t' ≥ t, Lasts window calls ⟨m, t'⟩
  := by
  obtain ⟨earlier, later, rfl, hlater⟩ := h
  -- the last request of the market is this one or comes after it
  obtain ⟨last, hlast, hs⟩ := exists_since_of_mem (P := Call.Requests m)
    (List.mem_cons_self (a := Call.record t markets) (l := later)) hm
  cases last with
  | active s => exact hlast.elim
  | record t' markets' =>
    have ht : t ≤ t' := by
      obtain e | hmem := List.mem_cons.1 hs.mem
      · rw [(Call.record.inj e).1]
      · apply (hlater _ hmem).1 hlast
    use t', ht, markets', hlast
    apply Since.append_left
    apply hs.imp
    intro c hc hn
    use hn
    obtain rfl | hc := List.mem_cons.1 hc
    · trivial
    · exact (hlater c hc).2.mono (Nat.add_le_add_right ht window)

/-- On a clock that does not go back the requests within the window are those of the markets in
demand, whatever was looked up in between. -/
theorem mem_active_of_clock (hclock : (calls ++ [Call.active now]).Pairwise (·.now ≤ ·.now)) :
  m ∈ ((empty window).run calls).active now ↔
    ∃ t markets, .record t markets ∈ calls ∧ m ∈ markets ∧ now ≤ t + window
  := by
  rw [(reflects_run window calls).mem_active]
  constructor
  · rintro ⟨t, ⟨markets, hm, hs⟩, hw⟩
    exact ⟨t, markets, hs.mem, hm, hw⟩
  · rintro ⟨t, markets, hc, hm, hw⟩
    obtain ⟨earlier, later, rfl⟩ := List.append_of_mem hc
    obtain ⟨hcalls, -, hnow⟩ := List.pairwise_append.1 hclock
    have hafter : ∀ c ∈ later, t ≤ c.now :=
      (List.pairwise_cons.1 (List.pairwise_append.1 hcalls).2.1).1
    have hlooks : ∀ c ∈ later, c.LooksBy (t + window) := by
      intro c hc
      have hle : c.now ≤ now := hnow c (by simp [hc]) (.active now) List.mem_cons_self
      cases c with
      | record s ms => trivial
      | active s => exact Nat.le_trans hle hw
    have hs : Since (fun c => (c.Requests m → t ≤ c.now) ∧ c.LooksBy (t + window))
        (earlier ++ .record t markets :: later) (.record t markets) :=
      ⟨earlier, later, rfl, fun c hc => ⟨fun _ => hafter c hc, hlooks c hc⟩⟩
    obtain ⟨t', ht, h⟩ := exists_lasts hm hs
    exact ⟨t', h, Nat.le_trans hw (Nat.add_le_add_right ht window)⟩

/-! ### Results -/

/-- On a clock that does not go back a lookup answers with exactly the markets that were requested
within the window, the same as if nobody had looked before.  Then as many markets are remembered as
it answers, and what it does not answer no later lookup does before it is requested again. -/
theorem active_after_run (window : Nat) (calls : List Call) (now : Nat)
    (hclock : (calls ++ [Call.active now]).Pairwise (·.now ≤ ·.now)) :
  ∃ markets d, ((empty window).run calls).call (.active now) = (some markets, d) ∧
    (∀ m, m ∈ markets ↔
      ∃ t requested, .record t requested ∈ calls ∧ m ∈ requested ∧ now ≤ t + window) ∧
    (((empty window).run (calls.filter (·.isRecord))).call (.active now)).1 = some markets ∧
    d.size = markets.size ∧
    ∀ m, m ∉ markets → ∀ later, (∀ c ∈ later, ¬ c.Requests m) → ∀ now', ∃ markets' d',
      (d.run later).call (.active now') = (some markets', d') ∧ m ∉ markets'
  := by
  have hd := reflects_run window calls
  refine ⟨_, _, rfl, fun m => mem_active_of_clock hclock, ?_, ?_, ?_⟩
  · have hrecords : (calls.filter (·.isRecord) ++ [Call.active now]).Pairwise (·.now ≤ ·.now) :=
      hclock.sublist (List.filter_sublist.append_right _)
    apply congrArg some
    apply IdSet.ext
    intro m
    rw [mem_active_of_clock hclock, mem_active_of_clock hrecords]
    simp [Call.isRecord]
  · apply Eq.symm
    apply (hd.unique.prune now).size_markets
  · intro m hm later hn now'
    refine ⟨_, _, rfl, not_mem_active_run ?_ hn⟩
    rintro r hr rfl
    apply hm
    obtain ⟨hr, hw⟩ := mem_prune.1 hr
    exact mem_active.2 ⟨r, hr, rfl, hw⟩

/-- Two requests, and a lookup at the last instant of the window of the first. -/
def twoRequests : List Call :=
  [.record 0 [⟨"BTCUSD"⟩], .record 50 [⟨"ETHUSD"⟩], .active 60]

/-- An instant later the first market is no longer in demand, and it does not come back. -/
theorem active_after_two_requests :
  (twoRequests ++ [Call.active 61]).Pairwise (·.now ≤ ·.now) ∧
    ∃ markets d, ((empty 60).run twoRequests).call (.active 61) = (some markets, d) ∧
      ⟨"BTCUSD"⟩ ∉ markets ∧ ⟨"ETHUSD"⟩ ∈ markets ∧ d.size = markets.size ∧
      ∃ markets' d', (d.run [.record 70 [⟨"ETHUSD"⟩]]).call (.active 0) = (some markets', d') ∧
        ⟨"BTCUSD"⟩ ∉ markets'
  := by
  have hclock : (twoRequests ++ [Call.active 61]).Pairwise (·.now ≤ ·.now) := by decide
  obtain ⟨markets, d, hcall, hmem, -, hsize, hlater⟩ := active_after_run 60 twoRequests 61 hclock
  have hbtc : ⟨"BTCUSD"⟩ ∉ markets := by
    rw [hmem]
    rintro ⟨t, requested, hr, hm, hw⟩
    simp only [twoRequests, List.mem_cons, Call.record.injEq, reduceCtorEq, List.not_mem_nil,
      or_false] at hr
    obtain ⟨rfl, rfl⟩ | ⟨rfl, rfl⟩ := hr
    · omega
    · simp at hm
  have heth : ⟨"ETHUSD"⟩ ∈ markets :=
    (hmem _).2 ⟨50, [⟨"ETHUSD"⟩], by simp [twoRequests], by simp, by decide⟩
  exact ⟨hclock, markets, d, hcall, hbtc, heth, hsize, hlater _ hbtc _ (by decide) 0⟩

/-- A market is in demand exactly if some request of it has no older one applied after it, and all
lookups since then, the present one included, are of its window. -/
theorem mem_active_after_run (window : Nat) (calls : List Call) (now : Nat) (m : MarketId) :
  m ∈ ((empty window).run calls).active now ↔
    ∃ earlier t markets later, calls = earlier ++ .record t markets :: later ∧ m ∈ markets ∧
      (∀ c ∈ later, c.Requests m → t ≤ c.now) ∧
      ∀ c ∈ later ++ [.active now], c.LooksBy (t + window)
  := by
  rw [(reflects_run window calls).mem_active]
  constructor
  · rintro ⟨t, ⟨markets, hm, earlier, later, rfl, hlater⟩, hw⟩
    refine ⟨earlier, t, markets, later, rfl, hm, ?_, ?_⟩
    · intro c hc hr
      apply absurd hr (hlater c hc).1
    · intro c hc
      obtain hc | hc := List.mem_append.1 hc
      · exact (hlater c hc).2
      · obtain rfl := List.mem_singleton.1 hc
        exact hw
  · rintro ⟨earlier, t, markets, later, rfl, hm, hr, hl⟩
    have hs : Since (fun c => (c.Requests m → t ≤ c.now) ∧ c.LooksBy (t + window))
        (earlier ++ .record t markets :: later) (.record t markets) :=
      ⟨earlier, later, rfl, fun c hc => ⟨hr c hc, hl c (List.mem_append_left _ hc)⟩⟩
    obtain ⟨t', ht, h⟩ := exists_lasts hm hs
    have hw : now ≤ t + window := hl (.active now) (by simp)
    exact ⟨t', h, Nat.le_trans hw (Nat.add_le_add_right ht window)⟩

/-- The market was requested at the instant 1000, and no request of it has a later time, but an older
one is applied after it.  A lookup within the window of the newest request does not find it. -/
theorem older_request_ends_demand :
  let m : MarketId := ⟨"BTCUSD"⟩
  let later : List Call := [.active 1000, .record 0 [m], .active 0]
  (∀ c ∈ .record 1000 [m] :: later, c.Requests m → c.now ≤ 1000) ∧
    (∀ c ∈ later ++ [.active 300500], c.LooksBy (1000 + 300000)) ∧
    m ∉ ((empty 300000).run (.record 1000 [m] :: later)).active 300500
  := by
  decide

end QuoteFeed.Demand
