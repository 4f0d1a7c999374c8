import QuoteFeed.Proofs.Service.Connection
import QuoteFeed.Proofs.Service.Interest
import QuoteFeed.Proofs.Stream.Receipts

/-!
# The quotes at hand

What is read for a market is its last quote that arrived, until the lifetime of quotes is over.
`Service.Shows` relates the cache to the quotes that arrived in the run so far, and every action
keeps it (`shows_step`).
-/

namespace QuoteFeed

/-- The quote that was received, until its lifetime is over. -/
def Receipt.read (env : Environment) (now : Nat) (f : Receipt) : Option Quote :=
  if now < f.time + env.settings.quotes.ttl then some f.quote else none

/-- The last quote that was received for a market. -/
def Receipt.last? (m : MarketId) (history : List Receipt) : Option Receipt :=
  (history.filter (·.quote.market = m)).getLast?

theorem Receipt.last?_concat (m : MarketId) (history : List Receipt) (f : Receipt) :
  last? m (history ++ [f]) = if f.quote.market = m then some f else last? m history
  := by
  rw [last?, last?, List.filter_append]
  by_cases h : f.quote.market = m
  · simp [h]
  · simp [h]

namespace Service

variable {env : Environment} {s s' : Service}

/-! ### The receipts of a run -/

/-- The quote that arrives by an action. -/
def receipt? (env : Environment) (s : Service) : Action → Option Receipt
  | .connection a => s.toStream.receipt? env a
  | _ => none

/-- The quotes that arrive in a run. -/
def receipts (env : Environment) (s : Service) : List Action → List Receipt
  | [] => []
  | a :: as => (s.receipt? env a).toList ++ (s.step env a).receipts env as

theorem receipts_concat (as : List Action) (a : Action) :
  s.receipts env (as ++ [a]) = s.receipts env as ++ ((s.run env as).receipt? env a).toList
  := by
  induction as generalizing s with
  | nil => simp [receipts, run]
  | cons b as ih => rw [List.cons_append, receipts, ih, receipts, List.append_assoc, run, run,
      List.foldl_cons]

/-! ### What an action changes -/

/-- An action is an act on the connection, or purges the cache, or lets time pass, or runs the
stream internally. -/
theorem step_cases (env : Environment) (s : Service) (a : Action) :
  (∃ c, a = .connection c) ∨ a = .purge ∨ (∃ d, a = .elapse d) ∨
    (s.receipt? env a = none ∧ InternalRun env s (s.step env a))
  := by
  cases a with
  | connection c => exact Or.inl ⟨c, rfl⟩
  | purge => exact Or.inr (Or.inl rfl)
  | elapse d => exact Or.inr (Or.inr (Or.inl ⟨d, rfl⟩))
  | _ => exact Or.inr (Or.inr (Or.inr ⟨rfl, internalRun_step env rfl⟩))

theorem now_step (env : Environment) (s : Service) (a : Action) :
  s.now ≤ (s.step env a).now
  := by
  obtain ⟨c, rfl⟩ | rfl | ⟨d, rfl⟩ | ⟨-, hi⟩ := step_cases env s a
  · apply Nat.le_of_eq
    symm
    apply congrArg Prod.fst (Stream.setting_act env s.toStream c)
  · apply Nat.le_refl
  · exact Nat.le_add_right s.now d
  · apply Nat.le_of_eq hi.keeps.1.symm

theorem coherent_step (h : s.toLink.Coherent) (a : Action) :
  (s.step env a).toLink.Coherent
  := by
  obtain ⟨c, rfl⟩ | rfl | ⟨d, rfl⟩ | ⟨-, hi⟩ := step_cases env s a
  · apply Stream.coherent_act h
  · apply h
  · apply h
  · apply hi.toLink_induction h
    intro s a _ hc
    apply Stream.coherent_act hc

/-- Unless the lifetime of a quote leads beyond the clock, the session that is held stays heard. -/
theorem attentive_step (hc : s.toLink.Coherent) (h : s.toLink.Attentive) {a : Action}
    (hf : ∀ f, s.receipt? env a = some f → f.Fits env) :
  (s.step env a).toLink.Attentive
  := by
  obtain ⟨c, rfl⟩ | rfl | ⟨d, rfl⟩ | ⟨-, hi⟩ := step_cases env s a
  · apply Stream.attentive_act hc h hf
  · apply h
  · apply h
  · apply And.right (a := (s.step env a).toLink.Coherent)
    apply hi.toLink_induction (P := fun l => l.Coherent ∧ l.Attentive) ⟨hc, h⟩
    rintro s a ha ⟨hc, h⟩
    constructor
    · apply Stream.coherent_act hc
    · apply Stream.attentive_internal hc h ha

theorem unique_step (h : s.toLink.Attentive) (hu : s.cache.Unique) (a : Action) :
  (s.step env a).cache.Unique
  := by
  obtain ⟨c, rfl⟩ | rfl | ⟨d, rfl⟩ | ⟨-, hi⟩ := step_cases env s a
  · apply Eq.subst (motive := Cache.Unique) (Stream.cache_act h c).symm
    apply Cache.unique_receive hu
  · apply Cache.unique_purge hu
  · apply hu
  · rw [hi.keeps.2]
    apply hu

/-- After an action that is read which was read before, but for the quote that arrived by it. -/
theorem get?_step (h : s.toLink.Attentive) (hu : s.cache.Unique) (a : Action) (m : MarketId)
    {now : Nat} (ht : s.now ≤ now) :
  (s.step env a).cache.get? now m = (s.cache.receive env (s.receipt? env a)).get? now m
  := by
  obtain ⟨c, rfl⟩ | rfl | ⟨d, rfl⟩ | ⟨hn, hi⟩ := step_cases env s a
  · apply congrArg (Cache.get? · now m) (Stream.cache_act h c)
  · apply Cache.get?_purge hu ht
  · rfl
  · rw [hi.keeps.2, hn]
    rfl

/-! ### The cache shows what arrived -/

/-- The cache shows the last quote of each market that arrived, and the next one will be heard. -/
structure Shows (env : Environment) (history : List Receipt) (s : Service) : Prop where
  coherent : s.toLink.Coherent
  attentive : s.toLink.Attentive
  unique : s.cache.Unique
  get?_eq : ∀ m now, s.now ≤ now →
    s.cache.get? now m = (Receipt.last? m history).bind (·.read env now)

/-- Every action keeps what the cache shows, if the quote that arrives by it fits. -/
theorem shows_step {history : List Receipt} (h : Shows env history s) {a : Action}
    (hf : ∀ f, s.receipt? env a = some f → f.Fits env) :
  Shows env (history ++ (s.receipt? env a).toList) (s.step env a)
  where
  coherent := coherent_step h.coherent a
  attentive := attentive_step h.coherent h.attentive hf
  unique := unique_step h.attentive h.unique a
  get?_eq m now ht := by
    have ht : s.now ≤ now := Nat.le_trans (now_step env s a) ht
    rw [get?_step h.attentive h.unique a m ht]
    cases hr : s.receipt? env a with
    | none =>
      rw [Option.toList_none, List.append_nil]
      apply h.get?_eq m now ht
    | some f =>
      rw [Option.toList_some, Receipt.last?_concat]
      by_cases hm : f.quote.market = m
      · rw [if_pos hm, Cache.receive_some (hf f hr), hm, Cache.get?_put_self]
        rfl
      · rw [if_neg hm, Cache.get?_receive_of_ne]
        · apply h.get?_eq m now ht
        · rintro k hk
          obtain rfl := Option.some.inj hk
          apply hm

theorem shows_run (env : Environment) (markets : List Market) (as : List Action)
    (hf : ∀ f ∈ (initial env markets).receipts env as, f.Fits env) :
  Shows env ((initial env markets).receipts env as) ((initial env markets).run env as)
  := by
  induction as using List.reverseRecOn with
  | nil =>
    constructor
    · apply Stream.coherent_initial
    · intro hs
      apply absurd rfl hs
    · apply Cache.unique_empty
    · intro m now _
      apply Cache.get?_empty
  | append_singleton as a ih =>
    rw [receipts_concat] at hf ⊢
    rw [run_concat]
    rw [List.forall_mem_append] at hf
    apply shows_step (ih hf.1)
    intro f hr
    apply hf.2
    rw [hr]
    simp

/-- After every run in which the lifetimes of quotes stay within the clock, the quote that is read
for a market is the last that arrived for it, until its lifetime is over, and no action by which no
quote of the market arrives changes what is read. -/
theorem quote_read_after_run (env : Environment) (markets : List Market) (as : List Action)
    (hf : ∀ f ∈ (initial env markets).receipts env as, f.Fits env) :
  let s := (initial env markets).run env as
  (∀ m now q, s.now ≤ now →
    (s.cache.get? now m = some q ↔
      ∃ f, Receipt.last? m ((initial env markets).receipts env as) = some f ∧
        now < f.time + env.settings.quotes.ttl ∧ f.quote = q)) ∧
    ∀ a m now, (∀ f, s.receipt? env a = some f → f.quote.market ≠ m) →
      (s.step env a).now ≤ now → (s.step env a).cache.get? now m = s.cache.get? now m
  := by
  intro s
  have h := shows_run env markets as hf
  constructor
  · intro m now q ht
    rw [h.get?_eq m now ht, Option.bind_eq_some_iff]
    simp [Receipt.read]
  · intro a m now hm ht
    rw [get?_step h.attentive h.unique a m (Nat.le_trans (now_step env s a) ht)]
    apply Cache.get?_receive_of_ne hm

/-- A run in which a ticker is received on the open session. -/
def tickerRun : List Action :=
  [.refresh, .start, .connection (.event 1 .opened), .connection (.event 1 (.message
    "\x7b\"type\":\"ticker\",\"id\":\"BTC-EUR\",\"data\":\x7b\"buy\":2,\"sell\":1\x7d\x7d"))]

/-- What is received in it: the bid is the price of a seller, and the ask that of a buyer. -/
def tickerReceipt : Receipt :=
  let price (n : Nat) (h : n < Decimal.mantissaBound) : Decimal := ⟨false, n, 0, h, Nat.zero_le _⟩
  ⟨⟨⟨"BTC-EUR"⟩, price 1 (Nat.le_of_ble_eq_true rfl), price 2 (Nat.le_of_ble_eq_true rfl), .epoch,
    .epoch⟩, 0⟩

/-- The quote of the ticker is read a second later. -/
theorem quote_read_after_ticker :
  (∀ f ∈ standard.receipts .standard tickerRun, f.Fits .standard) ∧
    (standard.run .standard tickerRun).cache.get? (Duration.seconds 1) ⟨"BTC-EUR"⟩ =
      some tickerReceipt.quote
  := by
  have hr : standard.receipts .standard tickerRun = [tickerReceipt] := by decide +kernel
  have hf : ∀ f ∈ standard.receipts .standard tickerRun, f.Fits .standard := by
    rw [hr, List.forall_mem_singleton]
    change 0 + Environment.standard.settings.quotes.ttl < Clock.limit
    decide +kernel
  have hn : (standard.run .standard tickerRun).now ≤ Duration.seconds 1 := by decide +kernel
  have hl : Receipt.last? ⟨"BTC-EUR"⟩ (standard.receipts .standard tickerRun) =
      some tickerReceipt := by
    rw [hr]
    decide +kernel
  have hlt : Duration.seconds 1 <
      tickerReceipt.time + Environment.standard.settings.quotes.ttl := by
    decide +kernel
  use hf
  -- unless both sides read the same, unification evaluates the run
  unfold standard at hf hn hl ⊢
  exact ((quote_read_after_run _ _ _ hf).1 _ _ _ hn).2 ⟨tickerReceipt, hl, hlt, rfl⟩

end Service

end QuoteFeed
