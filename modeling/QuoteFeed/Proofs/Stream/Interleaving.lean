import QuoteFeed.Proofs.Market.IdSet
import QuoteFeed.Proofs.Stream.Session
import QuoteFeed.Proofs.Stream.Sync

/-!
# A synchronisation amid other acts

A synchronisation reads the markets of interest once and then makes its calls one by one, and
between them anything else may happen to the connection (`Stream.syncAmid`).  Unless the interest
is forgotten meanwhile, the markets of interest are those that are wanted.  Otherwise only those are
whose calls came after it was forgotten for the last time (`subscribed_after_sync_amid`), so that
wanted markets get lost (`sync_loses_market`).
-/

namespace QuoteFeed

/-- Markets that are not both subscribed and unsubscribed by calls are subscribed afterwards if they
are by a call, or if they were and no call takes them back. -/
theorem IdSet.mem_foldl_apply {m : MarketId} {cs : List Call} {s : IdSet}
    (h : .subscribe m ∈ cs → .unsubscribe m ∉ cs) :
  m ∈ cs.foldl apply s ↔ .subscribe m ∈ cs ∨ m ∈ s ∧ .unsubscribe m ∉ cs
  := by
  induction cs generalizing s with
  | nil => simp
  | cons c cs ih =>
    have ih := ih (s := s.apply c) fun hm hu =>
      h (List.mem_cons_of_mem _ hm) (List.mem_cons_of_mem _ hu)
    rw [List.foldl_cons, ih]
    cases c with
    | subscribe id =>
      by_cases hm : m = id
      · subst hm
        have hu : .unsubscribe m ∉ cs := fun hu => h List.mem_cons_self (List.mem_cons_of_mem _ hu)
        simp [apply, hu]
      · simp [apply, hm]
    | unsubscribe id =>
      by_cases hm : m = id
      · subst hm
        simp [apply]
      · simp [apply, hm]

/-- No market is both subscribed and unsubscribed to bring about changes. -/
theorem Changes.mem_calls {wanted s : IdSet} {m : MarketId} :
  (.subscribe m ∈ (between wanted s).calls ↔ m ∈ wanted ∧ m ∉ s) ∧
    (.unsubscribe m ∈ (between wanted s).calls ↔ m ∈ s ∧ m ∉ wanted)
  := by
  have mem {t : IdSet} : m ∈ t.ids ↔ m ∈ t := Iff.rfl
  simp [calls, between, mem]

namespace Stream

/-- The call on the markets of interest that an act is. -/
def Act.call? : Act → Option Call
  | .subscribe id => some (.subscribe id)
  | .unsubscribe id => some (.unsubscribe id)
  | _ => none

/-- By the act all interest is forgotten: the session that is held ends, or the stream is
stopped. -/
def forgets (s : Stream) : Act → Bool
  | .stop => ¬ (s.state = .disconnected ∧ s.handle = none)
  | .event n e => e.isEnd ∧ s.transport.hears n ∧ s.isCurrent n
  | _ => false

variable (env : Environment) (s : Stream)

/-- The stream after acts. -/
def acts (as : List Act) : Stream :=
  as.foldl (act env) s

/-- By none of the acts interest is forgotten. -/
def Unbroken (s : Stream) : List Act → Prop
  | [] => True
  | a :: as => ¬ s.forgets a ∧ (s.act env a).Unbroken as

instance decidableUnbroken (s : Stream) (as : List Act) : Decidable (s.Unbroken env as) :=
  match as with
  | [] => inferInstanceAs (Decidable True)
  | a :: as =>
    have := decidableUnbroken (s.act env a) as
    inferInstanceAs (Decidable (¬ s.forgets a ∧ (s.act env a).Unbroken env as))

/-- The acts are the calls of a synchronisation, in their order, and others in between. -/
def IsSyncAmid (wanted : IdSet) (as : List Act) : Prop :=
  as.filterMap Act.call? = (Changes.between wanted s.subscribed).calls

instance (wanted : IdSet) (as : List Act) : Decidable (s.IsSyncAmid wanted as) :=
  inferInstanceAs (Decidable (_ = _))

/-- A synchronisation whose calls are among the acts. -/
def syncAmid (wanted : IdSet) (as : List Act) : Changes × Stream :=
  let changes := Changes.between wanted s.subscribed
  let s := s.acts env as
  (changes,
    if changes.isEmpty then s
    else (s.measure (·.setSubscriptions wanted.size)).note
      (.synced changes.subscribe.size changes.unsubscribe.size wanted.size))

/-- Without other acts it is the synchronisation that is carried out at once. -/
theorem syncAmid_calls (wanted : IdSet) :
  s.syncAmid env wanted ((Changes.between wanted s.subscribed).calls.map Call.act) =
    s.sync env wanted
  := by
  have h : s.acts env ((Changes.between wanted s.subscribed).calls.map Call.act) =
      (Changes.between wanted s.subscribed).calls.foldl (call env) s := by
    rw [acts, List.foldl_map]
    congr
    funext s c
    rw [call_eq_act]
  rw [syncAmid, h, sync]
  dsimp only
  split
  · rename_i he
    rw [Changes.isEmpty, Bool.and_eq_true, IdSet.isEmpty, IdSet.isEmpty, List.isEmpty_iff,
      List.isEmpty_iff] at he
    rw [Changes.calls, he.1, he.2]
    rfl
  · rfl

variable {env s}

/-! ### What becomes of the markets of interest -/

/-- By an act all interest is forgotten, or the markets of interest change by a call, or they stay
as they are. -/
theorem subscribed_act (a : Act) :
  (s.act env a).subscribed =
    if s.forgets a then .empty else (a.call?.map s.subscribed.apply).getD s.subscribed
  := by
  cases a with
  | start =>
    obtain ⟨-, e⟩ | ⟨-, e⟩ := start_cases env s
    · rw [act, e]
      rfl
    · rw [act, e]
      rfl
  | stop =>
    obtain ⟨hs, hh, e⟩ | ⟨hn, e⟩ := stop_cases env s
    · have hf : s.forgets .stop = false := decide_eq_false fun h => h ⟨hs, hh⟩
      rw [act, e, hf]
      rfl
    · have hf : s.forgets .stop = true := decide_eq_true hn
      rw [act, e, hf]
      rfl
  | subscribe id => apply subscribed_subscribe
  | unsubscribe id => apply subscribed_unsubscribe
  | event n e =>
    by_cases hf : e.isEnd ∧ s.transport.hears n ∧ s.isCurrent n
    · have hf' : s.forgets (.event n e) = true := decide_eq_true hf
      rw [act, deliver_end env hf.1 hf.2.1 hf.2.2, hf']
      rfl
    · have hf' : s.forgets (.event n e) = false := decide_eq_false hf
      have hs : (s.deliver env n e).subscribed = s.subscribed := by
        by_cases ho : e = .opened ∧ s.awaits n
        · obtain ⟨rfl, ho⟩ := ho
          rw [deliver_opened env s n ho]
          rfl
        · obtain e | e := deliver_idle env ho hf
          · rw [e]
          · rw [e]
            rfl
      rw [act, hs, hf']
      rfl
  | ping generation due =>
    rw [act, toLink_pingTick]
    rfl
  | lose n => rfl
  | outage broken => rfl

/-- As long as no interest is forgotten, only calls change the markets of interest. -/
theorem subscribed_acts {as : List Act} (h : s.Unbroken env as) :
  (s.acts env as).subscribed = (as.filterMap Act.call?).foldl IdSet.apply s.subscribed
  := by
  induction as generalizing s with
  | nil => rfl
  | cons a as ih =>
    have hs : (s.act env a).subscribed = (a.call?.map s.subscribed.apply).getD s.subscribed := by
      rw [subscribed_act, if_neg h.1]
    rw [acts, List.foldl_cons, ← acts, ih h.2, hs, List.filterMap_cons]
    cases a.call? with
    | none => rfl
    | some c => rfl

theorem subscribed_syncAmid (wanted : IdSet) (as : List Act) :
  (s.syncAmid env wanted as).2.subscribed = (s.acts env as).subscribed
  := by
  rw [syncAmid]
  dsimp only
  split
  · rfl
  · rfl

theorem acts_append (as bs : List Act) :
  s.acts env (as ++ bs) = (s.acts env as).acts env bs
  := List.foldl_append

theorem mem_calls_subscribe {m : MarketId} {as : List Act} :
  .subscribe m ∈ as.filterMap Act.call? ↔ .subscribe m ∈ as
  := by
  rw [List.mem_filterMap]
  constructor
  · rintro ⟨a, ha, e⟩
    cases a with
    | subscribe id =>
      obtain rfl := Call.subscribe.inj (Option.some.inj e)
      apply ha
    | unsubscribe id => exact nomatch Option.some.inj e
    | _ => contradiction
  · intro h
    use .subscribe m, h
    rfl

/-- No interest is forgotten by acts, or there is a last act by which it is. -/
theorem unbroken_or_forgets (env : Environment) (s : Stream) (as : List Act) :
  s.Unbroken env as ∨ ∃ before a after, as = before ++ a :: after ∧
    (s.acts env before).forgets a ∧ (s.acts env (before ++ [a])).Unbroken env after
  := by
  induction as generalizing s with
  | nil => exact Or.inl trivial
  | cons a as ih =>
    obtain h | ⟨before, b, after, rfl, hf, hu⟩ := ih (s.act env a)
    · by_cases hf : s.forgets a
      · right
        exact ⟨[], a, as, rfl, hf, h⟩
      · left
        exact ⟨hf, h⟩
    · right
      exact ⟨a :: before, b, after, rfl, hf, hu⟩

/-- After the last act by which all interest was forgotten, the markets of interest are those whose
calls came later, if no call takes them back. -/
theorem mem_subscribed_of_forgets {before after : List Act} {a : Act} {m : MarketId}
    (hf : (s.acts env before).forgets a)
    (hu : (s.acts env (before ++ [a])).Unbroken env after)
    (hm : .subscribe m ∈ after.filterMap Act.call? → .unsubscribe m ∉ after.filterMap Act.call?) :
  m ∈ (s.acts env (before ++ a :: after)).subscribed ↔ .subscribe m ∈ after
  := by
  have he : (s.acts env (before ++ [a])).subscribed = .empty := by
    rw [acts_append]
    apply Eq.trans (subscribed_act a)
    rw [if_pos hf]
  rw [show before ++ a :: after = (before ++ [a]) ++ after by simp, acts_append,
    subscribed_acts hu, he, IdSet.mem_foldl_apply hm, mem_calls_subscribe]
  simp [IdSet.not_mem_empty]

/-- The calls of a synchronisation are made in order while other acts happen in between.  Unless
all interest is forgotten by one of these, the markets of interest are those that are wanted when
the synchronisation returns.  Otherwise they are those whose calls came after it was forgotten for
the last time.  In either case no market is of interest that is not wanted. -/
theorem subscribed_after_sync_amid (env : Environment) (s : Stream) (wanted : IdSet)
    (as : List Act) (h : s.IsSyncAmid wanted as) :
  let s' := (s.syncAmid env wanted as).2
  (s.Unbroken env as → s'.subscribed = wanted) ∧
    (∀ before a after, as = before ++ a :: after → (s.acts env before).forgets a →
      (s.acts env (before ++ [a])).Unbroken env after →
      ∀ m, m ∈ s'.subscribed ↔ .subscribe m ∈ after) ∧
    ∀ m ∈ s'.subscribed, m ∈ wanted
  := by
  intro s'
  have hs : s'.subscribed = (s.acts env as).subscribed := subscribed_syncAmid wanted as
  have hunbroken (hu : s.Unbroken env as) : s'.subscribed = wanted := by
    rw [hs, subscribed_acts hu, h]
    apply IdSet.foldl_apply_calls
  have hbroken {before after : List Act} {a : Act} (e : as = before ++ a :: after)
      (hf : (s.acts env before).forgets a)
      (hu : (s.acts env (before ++ [a])).Unbroken env after) (m : MarketId) :
      m ∈ s'.subscribed ↔ .subscribe m ∈ after := by
    have sub {c : Call} (hc : c ∈ after.filterMap Act.call?) :
        c ∈ (Changes.between wanted s.subscribed).calls := by
      obtain ⟨b, hb, e'⟩ := List.mem_filterMap.1 hc
      rw [← h, e]
      apply List.mem_filterMap.2
      exact ⟨b, by simp [hb], e'⟩
    rw [hs, e]
    apply mem_subscribed_of_forgets hf hu
    intro hm hu
    have hm := Changes.mem_calls.1.1 (sub hm)
    have hu := Changes.mem_calls.2.1 (sub hu)
    exact hu.2 hm.1
  refine ⟨hunbroken, fun before a after => hbroken, ?_⟩
  intro m hm
  obtain hu | ⟨before, a, after, e, hf, hu⟩ := unbroken_or_forgets env s as
  · rw [← hunbroken hu]
    apply hm
  · have hm : .subscribe m ∈ as := by
      rw [e]
      simp [(hbroken e hf hu m).1 hm]
    rw [← mem_calls_subscribe, h] at hm
    exact (Changes.mem_calls.1.1 hm).1

/-- A session that opens in the middle of a synchronisation does not matter. -/
theorem subscribed_after_sync_amid_opening :
  let s := initial.run .standard [.act .start, .act (.subscribe ⟨"BTC-EUR"⟩)]
  let wanted := IdSet.ofList [⟨"BTC-EUR"⟩, ⟨"ETH-EUR"⟩]
  let as := [.event 1 .opened, .subscribe ⟨"ETH-EUR"⟩]
  s.IsSyncAmid wanted as ∧ (s.syncAmid .standard wanted as).2.subscribed = wanted
  := by
  intro s wanted as
  have h : s.IsSyncAmid wanted as := by decide +kernel
  have hu : s.Unbroken .standard as := by decide +kernel
  exact ⟨h, (subscribed_after_sync_amid .standard s wanted as h).1 hu⟩

/-- A synchronisation on an open session, which streams one market, with a second one: the session
is closed before its only call.  When it returns, the first market is lost, although it is wanted,
and the gauge shows two. -/
theorem sync_loses_market :
  let s := initial.run .standard
    [.act .start, .act (.event 1 .opened), .act (.subscribe ⟨"BTC-EUR"⟩)]
  let wanted := IdSet.ofList [⟨"BTC-EUR"⟩, ⟨"ETH-EUR"⟩]
  let as := [.event 1 (.closed "bye"), .subscribe ⟨"ETH-EUR"⟩]
  let s' := (s.syncAmid .standard wanted as).2
  s.IsSyncAmid wanted as ∧ s'.subscribed = IdSet.ofList [⟨"ETH-EUR"⟩] ∧ s'.subscribed ≠ wanted ∧
    s'.report.metrics.subscriptions = 2
  := by
  decide +kernel

end Stream

end QuoteFeed
