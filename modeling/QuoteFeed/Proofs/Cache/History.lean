import Mathlib.Data.Set.Card
import QuoteFeed.Proofs.Cache
import QuoteFeed.Proofs.History

/-!
# The history of a cache

What a cache answers is determined by the calls before.  A value is read if it is the last that was
stored for its key (`Cache.LastSet`) and still lives.  A purge counts the keys whose last value has
expired and was not removed by another purge since (`Cache.Held`).  The cache is followed along its
calls by what it stores (`Cache.Reflects`), and compared to a cache that is not purged by what is
read from then on (`Cache.AgreeFrom`).
-/

namespace QuoteFeed.Cache

variable {κ ν : Type}

/-! ### Calls and answers -/

/-- A call on a cache at a moment. -/
inductive Call (κ ν : Type) where
  | set (now : Nat) (key : κ) (value : ν) (ttl : Nat)
  | get (now : Nat) (key : κ)
  | purge (now : Nat)

/-- What a call answers. -/
inductive Answer (ν : Type) where
  | stored
  | read (value : Option ν)
  | purged (count : Nat)

namespace Call

/-- The moment of a call. -/
def now : Call κ ν → Nat
  | .set now .. => now
  | .get now _ => now
  | .purge now => now

/-- What the call stores expires within the clock. -/
def Fits : Call κ ν → Prop
  | .set now _ _ ttl => now + ttl < Clock.limit
  | _ => True

instance : DecidablePred (Fits : Call κ ν → Prop)
  | .set .. => inferInstanceAs (Decidable (_ < _))
  | .get .. => inferInstanceAs (Decidable True)
  | .purge _ => inferInstanceAs (Decidable True)

/-- The call stores a value of the key. -/
def Sets (k : κ) : Call κ ν → Prop
  | .set _ key _ _ => key = k
  | _ => False

/-- The call removes what expires at the instant. -/
def Purges (expiresAt : Nat) : Call κ ν → Prop
  | .purge now => expiresAt ≤ now
  | _ => False

/-- The call is a purge. -/
def isPurge : Call κ ν → Bool
  | .purge _ => true
  | _ => false

end Call

/-- What the calls to `get` among the answered ones read, in their order. -/
def reads (answers : List (Answer ν)) : List (Option ν) :=
  answers.filterMap fun
    | .read v => some v
    | _ => none

section Calls

variable [DecidableEq κ]

/-- Takes a call, unless it stores something beyond the clock. -/
def call? (c : Cache κ ν) : Call κ ν → Option (Answer ν × Cache κ ν)
  | .set now key value ttl => (c.set? now key value ttl).map (.stored, ·)
  | .get now key => some (.read (c.get? now key), c)
  | .purge now => some (.purged (c.expired now), c.purge now)

/-- Takes calls one after another. -/
def run? (c : Cache κ ν) : List (Call κ ν) → Option (List (Answer ν) × Cache κ ν)
  | [] => some ([], c)
  | call :: calls => do
    let (answer, c) ← c.call? call
    let (answers, c) ← c.run? calls
    return (answer :: answers, c)

end Calls

/-! ### What the calls say -/

/-- The call is one of the calls, and those after it satisfy `P`. -/
def Since (P : Call κ ν → Prop) (calls : List (Call κ ν)) (call : Call κ ν) : Prop :=
  ∃ earlier later, calls = earlier ++ call :: later ∧ ∀ c ∈ later, P c

/-- The last value of the key was stored at the instant `t`, for `ttl`. -/
def LastSet (calls : List (Call κ ν)) (t : Nat) (key : κ) (value : ν) (ttl : Nat) : Prop :=
  Since (fun call => ¬ call.Sets key) calls (.set t key value ttl)

/-- The last value of the key was stored so, and no purge removed it since. -/
def Held (calls : List (Call κ ν)) (t : Nat) (key : κ) (value : ν) (ttl : Nat) : Prop :=
  Since (fun call => ¬ call.Sets key ∧ ¬ call.Purges (t + ttl)) calls (.set t key value ttl)

/-- What a call has to answer after the calls before it. -/
inductive Call.Answered (before : List (Call κ ν)) : Call κ ν → Answer ν → Prop where
  | set {now : Nat} {key : κ} {value : ν} {ttl : Nat} :
    Answered before (.set now key value ttl) .stored
  | get {now : Nat} {key : κ} {r : Option ν}
      (h : ∀ v, r = some v ↔ ∃ t ttl, LastSet before t key v ttl ∧ now < t + ttl) :
    Answered before (.get now key) (.read r)
  | purge {now n : Nat}
      (h : {k | ∃ t v ttl, Held before t k v ttl ∧ t + ttl ≤ now}.encard = n) :
    Answered before (.purge now) (.purged n)

section Histories

variable {P Q : Call κ ν → Prop} {calls : List (Call κ ν)} {call c : Call κ ν} {t now ttl : Nat}
  {key : κ} {value : ν}

theorem not_since_nil :
  ¬ Since P [] call
  := QuoteFeed.not_since_nil

theorem since_concat :
  Since P (calls ++ [c]) call ↔ c = call ∨ P c ∧ Since P calls call
  := QuoteFeed.since_concat

theorem Since.imp (h : Since P calls call) (himp : ∀ c ∈ calls, P c → Q c) :
  Since Q calls call
  := QuoteFeed.Since.imp h himp

theorem Held.lastSet (h : Held calls t key value ttl) :
  LastSet calls t key value ttl
  := h.imp fun _ _ => And.left

/-- What still lives was not removed. -/
theorem LastSet.held (h : LastSet calls t key value ttl) (hnow : ∀ call ∈ calls, call.now ≤ now)
    (hl : now < t + ttl) :
  Held calls t key value ttl
  := by
  apply h.imp
  intro call hc hs
  use hs
  cases call with
  | purge s =>
    -- The purges so far came before the value expires.
    have hs : s ≤ now := hnow _ hc
    exact Nat.not_le_of_lt (Nat.lt_of_le_of_lt hs hl)
  | _ => exact id

end Histories

/-! ### What a cache stores -/

section Entries

variable {c : Cache κ ν} {now : Nat}

/-- As many keys have an entry of a kind as there are entries of the kind. -/
theorem encard_keys (h : c.Unique) (p : Entry κ ν → Bool) :
  {k | ∃ e ∈ c.entries, p e ∧ e.key = k}.encard = (c.entries.filter p).length
  := by
  classical
  let keys := (c.entries.filter p).map (·.key)
  have hkeys : {k | ∃ e ∈ c.entries, p e ∧ e.key = k} = (keys.toFinset : Set κ) := by
    ext k
    simp [keys, and_assoc]
  have hnodup : keys.Nodup := List.Nodup.sublist (List.filter_sublist.map _) h
  rw [hkeys, Set.encard_coe_eq_coe_finsetCard, List.toFinset_card_of_nodup hnodup, List.length_map]

/-- A purge removes the entries that have expired. -/
theorem expired_eq :
  c.expired now = (c.entries.filter fun e => e.expiresAt ≤ now).length
  := by
  rw [expired, size, size, purge,
    List.length_eq_length_filter_add fun e : Entry κ ν => decide (e.expiresAt > now),
    Nat.add_sub_cancel_left]
  congr 2
  funext e
  by_cases h : e.expiresAt ≤ now
  · simp [h]
  · simp [h, Nat.lt_of_not_le h]

end Entries

/-- The entries of the cache are those that its calls left. -/
structure Reflects (calls : List (Call κ ν)) (c : Cache κ ν) : Prop where
  unique : c.Unique
  mem_iff (e : Entry κ ν) :
    e ∈ c.entries ↔ ∃ t ttl, e.expiresAt = t + ttl ∧ Held calls t e.key e.value ttl

section Reflects

variable {calls : List (Call κ ν)} {c c' : Cache κ ν} {call : Call κ ν} {answer : Answer ν}
  {answers : List (Answer ν)} {now : Nat}

theorem reflects_empty :
  Reflects [] (empty : Cache κ ν)
  := by
  use unique_empty
  intro e
  simp [empty, Held, not_since_nil]

/-- The keys whose value is held and expires at an instant of a kind are as many as the entries that
do. -/
theorem Reflects.encard_held (h : Reflects calls c) (p : Nat → Bool) :
  {k | ∃ t v ttl, Held calls t k v ttl ∧ p (t + ttl)}.encard =
    (c.entries.filter fun e => p e.expiresAt).length
  := by
  rw [← encard_keys h.unique]
  congr 1
  ext k
  constructor
  · rintro ⟨t, v, ttl, hheld, hp⟩
    exact ⟨⟨k, v, t + ttl⟩, (h.mem_iff _).2 ⟨t, ttl, rfl, hheld⟩, hp, rfl⟩
  · rintro ⟨e, he, hp, rfl⟩
    obtain ⟨t, ttl, hexp, hheld⟩ := (h.mem_iff e).1 he
    exact ⟨t, e.value, ttl, hheld, hexp ▸ hp⟩

variable [DecidableEq κ]

theorem call?_set_eq_some_iff {key : κ} {value : ν} {ttl : Nat} :
  c.call? (.set now key value ttl) = some (answer, c') ↔
    now + ttl < Clock.limit ∧ answer = .stored ∧ c' = c.put key value (now + ttl)
  := by
  rw [Cache.call?, Option.map_eq_some_iff]
  simp only [set?_eq_some_iff, Prod.mk.injEq]
  constructor
  · rintro ⟨_, ⟨hfits, rfl⟩, rfl, rfl⟩
    exact ⟨hfits, rfl, rfl⟩
  · rintro ⟨hfits, rfl, rfl⟩
    exact ⟨_, ⟨hfits, rfl⟩, rfl, rfl⟩

theorem Reflects.call? (h : Reflects calls c) (hc : c.call? call = some (answer, c')) :
  Reflects (calls ++ [call]) c'
  := by
  cases call with
  | set now key value ttl =>
    obtain ⟨-, -, rfl⟩ := call?_set_eq_some_iff.1 hc
    use unique_put h.unique
    intro e
    rw [mem_put, h.mem_iff]
    simp only [Held, since_concat]
    constructor
    · rintro (rfl | ⟨⟨t, ttl', hexp, hheld⟩, hk⟩)
      · exact ⟨now, ttl, rfl, Or.inl rfl⟩
      · exact ⟨t, ttl', hexp, Or.inr ⟨⟨hk.symm, id⟩, hheld⟩⟩
    · rintro ⟨t, ttl', hexp, hnew | ⟨⟨hk, -⟩, hheld⟩⟩
      · obtain ⟨rfl, rfl, rfl, rfl⟩ := Call.set.inj hnew
        left
        rw [← hexp]
      · exact Or.inr ⟨⟨t, ttl', hexp, hheld⟩, Ne.symm hk⟩
  | get now key =>
    obtain ⟨-, rfl⟩ := Prod.mk.inj (Option.some.inj hc)
    use h.unique
    intro e
    simp only [h.mem_iff, Held, since_concat, reduceCtorEq, false_or, Call.Sets, Call.Purges,
      not_false_eq_true, true_and]
  | purge now =>
    obtain ⟨-, rfl⟩ := Prod.mk.inj (Option.some.inj hc)
    use unique_purge h.unique now
    intro e
    rw [mem_purge, h.mem_iff]
    simp only [Held, since_concat, reduceCtorEq, false_or, Call.Sets, Call.Purges,
      not_false_eq_true, true_and, Nat.not_le]
    constructor
    · rintro ⟨⟨t, ttl, hexp, hheld⟩, hl⟩
      exact ⟨t, ttl, hexp, hexp ▸ hl, hheld⟩
    · rintro ⟨t, ttl, hexp, hl, hheld⟩
      exact ⟨⟨t, ttl, hexp, hheld⟩, hexp ▸ hl⟩

theorem run?_cons_eq_some_iff {rest : List (Call κ ν)} :
  c.run? (call :: rest) = some (answers, c') ↔
    ∃ answer c₁ answers', c.call? call = some (answer, c₁) ∧ c₁.run? rest = some (answers', c') ∧
      answers = answer :: answers'
  := by
  simp only [run?, Option.bind_eq_bind, Option.bind_eq_some_iff, Prod.exists, Option.pure_def,
    Option.some.injEq, Prod.mk.injEq]
  constructor
  · rintro ⟨answer, c₁, hc, answers', c₂, hr, rfl, rfl⟩
    exact ⟨answer, c₁, answers', hc, hr, rfl⟩
  · rintro ⟨answer, c₁, answers', hc, hr, rfl⟩
    exact ⟨answer, c₁, hc, answers', c', hr, rfl, rfl⟩

theorem Reflects.run? {rest : List (Call κ ν)} (h : Reflects calls c)
    (hr : c.run? rest = some (answers, c')) :
  Reflects (calls ++ rest) c'
  := by
  induction rest generalizing calls c answers with
  | nil =>
    obtain ⟨-, rfl⟩ := Prod.mk.inj (Option.some.inj hr)
    rwa [List.append_nil]
  | cons call rest ih =>
    obtain ⟨answer, c₁, answers', hc, hr, -⟩ := run?_cons_eq_some_iff.1 hr
    rw [List.append_cons]
    exact ih (h.call? hc) hr

/-- What is read is the last value of the key, while it lives. -/
theorem Reflects.get?_eq_some_iff {key : κ} {v : ν} (h : Reflects calls c)
    (hnow : ∀ call ∈ calls, call.now ≤ now) :
  c.get? now key = some v ↔ ∃ t ttl, LastSet calls t key v ttl ∧ now < t + ttl
  := by
  rw [Cache.get?_eq_some_iff h.unique]
  constructor
  · rintro ⟨e, he, rfl, hl, rfl⟩
    obtain ⟨t, ttl, hexp, hheld⟩ := (h.mem_iff e).1 he
    exact ⟨t, ttl, hheld.lastSet, hexp ▸ hl⟩
  · rintro ⟨t, ttl, hlast, hl⟩
    have hheld := hlast.held hnow hl
    exact ⟨⟨key, v, t + ttl⟩, (h.mem_iff _).2 ⟨t, ttl, rfl, hheld⟩, rfl, hl, rfl⟩

/-- A call is answered as its history says. -/
theorem Reflects.answered (h : Reflects calls c) (hnow : ∀ before ∈ calls, before.now ≤ call.now)
    (hc : c.call? call = some (answer, c')) :
  call.Answered calls answer
  := by
  cases call with
  | set now key value ttl =>
    obtain ⟨-, rfl, -⟩ := call?_set_eq_some_iff.1 hc
    exact .set
  | get now key =>
    obtain ⟨rfl, -⟩ := Prod.mk.inj (Option.some.inj hc)
    exact .get fun v => h.get?_eq_some_iff hnow
  | purge now =>
    obtain ⟨rfl, -⟩ := Prod.mk.inj (Option.some.inj hc)
    apply Call.Answered.purge
    rw [expired_eq, ← h.encard_held fun expiresAt => expiresAt ≤ now]
    simp

end Reflects

/-! ### What purges change -/

/-- From a moment on, the same is read of both caches. -/
def AgreeFrom [DecidableEq κ] (now : Nat) (c d : Cache κ ν) : Prop :=
  ∀ t ≥ now, ∀ key, c.get? t key = d.get? t key

section Purges

variable [DecidableEq κ] {calls : List (Call κ ν)} {c c' d : Cache κ ν}
  {answers : List (Answer ν)} {now t : Nat}

theorem AgreeFrom.later (h : AgreeFrom now c d) (ht : now ≤ t) :
  AgreeFrom t c d
  := fun s hs => h s (ht.trans hs)

theorem AgreeFrom.put {key : κ} {value : ν} {expiresAt : Nat} (h : AgreeFrom now c d) :
  AgreeFrom now (c.put key value expiresAt) (d.put key value expiresAt)
  := by
  intro s hs k
  by_cases hk : k = key
  · rw [hk, get?_put_self, get?_put_self]
  · rw [get?_put_of_ne hk, get?_put_of_ne hk, h s hs]

theorem AgreeFrom.purge (h : AgreeFrom now c d) (hc : c.Unique) :
  AgreeFrom now (c.purge now) d
  := by
  intro s hs k
  rw [get?_purge hc hs, h s hs]

/-- Without the purges, the same is read. -/
theorem exists_run?_filter (hclock : calls.Pairwise (·.now ≤ ·.now))
    (hnow : ∀ call ∈ calls, now ≤ call.now) (hc : c.Unique) (h : AgreeFrom now c d)
    (hr : c.run? calls = some (answers, c')) :
  ∃ answers' d', d.run? (calls.filter (!·.isPurge)) = some (answers', d') ∧
    reads answers' = reads answers
  := by
  induction calls generalizing c d answers now with
  | nil =>
    obtain ⟨rfl, -⟩ := Prod.mk.inj (Option.some.inj hr)
    exact ⟨[], d, rfl, rfl⟩
  | cons call calls ih =>
    obtain ⟨answer, c₁, answers, hcall, hr, rfl⟩ := run?_cons_eq_some_iff.1 hr
    obtain ⟨hnext, hrest⟩ := List.pairwise_cons.1 hclock
    -- The caches agree from the moment of the call on, and what follows comes after it.
    have h := h.later (hnow call List.mem_cons_self)
    cases call with
    | set t key value ttl =>
      obtain ⟨hfits, rfl, rfl⟩ := call?_set_eq_some_iff.1 hcall
      obtain ⟨answers', d', hd, hreads⟩ := ih hrest hnext (unique_put hc) h.put hr
      refine ⟨.stored :: answers', d', run?_cons_eq_some_iff.2 ⟨_, _, _, ?_, hd, rfl⟩, hreads⟩
      exact call?_set_eq_some_iff.2 ⟨hfits, rfl, rfl⟩
    | get t key =>
      obtain ⟨rfl, rfl⟩ := Prod.mk.inj (Option.some.inj hcall)
      obtain ⟨answers', d', hd, hreads⟩ := ih hrest hnext hc h hr
      use .read (d.get? t key) :: answers', d'
      use run?_cons_eq_some_iff.2 ⟨.read (d.get? t key), d, answers', rfl, hd, rfl⟩
      simp only [reads, List.filterMap_cons] at hreads ⊢
      rw [hreads, h t le_rfl]
    | purge t =>
      obtain ⟨rfl, rfl⟩ := Prod.mk.inj (Option.some.inj hcall)
      obtain ⟨answers', d', hd, hreads⟩ := ih hrest hnext (unique_purge hc t) (h.purge hc) hr
      exact ⟨answers', d', hd, hreads⟩

end Purges

/-! ### Whole runs -/

section Runs

variable [DecidableEq κ] {calls : List (Call κ ν)} {c c' : Cache κ ν}
  {answers : List (Answer ν)}

theorem exists_run? (hfits : ∀ call ∈ calls, call.Fits) :
  ∃ answers c', c.run? calls = some (answers, c')
  := by
  induction calls generalizing c with
  | nil => exact ⟨[], c, rfl⟩
  | cons call calls ih =>
    obtain ⟨hcall, hfits⟩ := List.forall_mem_cons.1 hfits
    obtain ⟨answer, c₁, h⟩ : ∃ answer c₁, c.call? call = some (answer, c₁) := by
      cases call with
      | set now key value ttl => exact ⟨_, _, call?_set_eq_some_iff.2 ⟨hcall, rfl, rfl⟩⟩
      | get now key => exact ⟨_, _, rfl⟩
      | purge now => exact ⟨_, _, rfl⟩
    obtain ⟨answers, c', hr⟩ := ih hfits (c := c₁)
    exact ⟨answer :: answers, c', run?_cons_eq_some_iff.2 ⟨answer, c₁, answers, h, hr, rfl⟩⟩

/-- The answer to a call is found at its place. -/
theorem exists_call?_of_run? {before later : List (Call κ ν)} {call : Call κ ν}
    (hr : c.run? (before ++ call :: later) = some (answers, c')) :
  ∃ answers₁ c₁ answer c₂, c.run? before = some (answers₁, c₁) ∧
    c₁.call? call = some (answer, c₂) ∧ answers[before.length]? = some answer
  := by
  induction before generalizing c answers with
  | nil =>
    obtain ⟨answer, c₁, rest, hcall, -, rfl⟩ := run?_cons_eq_some_iff.1 hr
    exact ⟨[], c, answer, c₁, rfl, hcall, rfl⟩
  | cons first before ih =>
    obtain ⟨answer₀, c₀, rest, hfirst, hrest, rfl⟩ := run?_cons_eq_some_iff.1 hr
    obtain ⟨answers₁, c₁, answer, c₂, hbefore, hcall, hplace⟩ := ih hrest
    refine ⟨answer₀ :: answers₁, c₁, answer, c₂, ?_, hcall, hplace⟩
    exact run?_cons_eq_some_iff.2 ⟨answer₀, c₀, answers₁, hfirst, hbefore, rfl⟩

/-- A cache takes all calls of a clock that does not go back, as long as what they store expires
within the clock.  Each is answered by what the calls before it say of the last values of the keys,
the purges among them change nothing that is read, and there are as many values in the end as there
are keys whose last value was not removed. -/
theorem answered_run? (calls : List (Call κ ν)) (hclock : calls.Pairwise (·.now ≤ ·.now))
    (hfits : ∀ call ∈ calls, call.Fits) :
  ∃ answers c, (empty : Cache κ ν).run? calls = some (answers, c) ∧
    (∀ before call later, calls = before ++ call :: later →
      ∃ answer, answers[before.length]? = some answer ∧ call.Answered before answer) ∧
    (∃ answers' c', (empty : Cache κ ν).run? (calls.filter (!·.isPurge)) = some (answers', c') ∧
      reads answers' = reads answers) ∧
    {k | ∃ t v ttl, Held calls t k v ttl}.encard = c.size
  := by
  obtain ⟨answers, c, hr⟩ := exists_run? (c := (empty : Cache κ ν)) hfits
  refine ⟨answers, c, hr, ?_, ?_, ?_⟩
  · rintro before call later rfl
    obtain ⟨answers₁, c₁, answer, c₂, hbefore, hcall, hplace⟩ := exists_call?_of_run? hr
    have hearlier := (List.pairwise_append.1 hclock).2.2
    use answer, hplace
    apply (reflects_empty.run? hbefore).answered _ hcall
    intro first hfirst
    exact hearlier first hfirst call List.mem_cons_self
  · have hagree : AgreeFrom 0 (empty : Cache κ ν) empty := fun _ _ _ => rfl
    exact exists_run?_filter hclock (fun _ _ => Nat.zero_le _) unique_empty hagree hr
  · have hcard := (reflects_empty.run? hr).encard_held fun _ => true
    simpa [size] using hcard

/-- Two values, a purge at the instant at which the first of them expires, and a look at both. -/
def swept : List (Call Nat Nat) :=
  [.set 0 1 10 5, .set 0 2 20 50, .purge 5, .get 7 1, .get 7 2]

/-- The purge removes the first value, and the second is read with it and without it. -/
theorem answered_run?_swept :
  swept.Pairwise (·.now ≤ ·.now) ∧ (∀ call ∈ swept, call.Fits) ∧
    (Call.purge 5).Answered (swept.take 2) (.purged 1) ∧
    ∃ answers' c', (empty : Cache Nat Nat).run? (swept.filter (!·.isPurge)) = some (answers', c') ∧
      reads answers' = [none, some 20]
  := by
  have hclock : swept.Pairwise (·.now ≤ ·.now) := by decide
  have hfits : ∀ call ∈ swept, call.Fits := by decide +kernel
  obtain ⟨answers, c, hr, hanswered, ⟨answers', c', hr', hreads⟩, -⟩ :=
    answered_run? swept hclock hfits
  have hrun : (empty : Cache Nat Nat).run? swept =
      some ([.stored, .stored, .purged 1, .read none, .read (some 20)], ⟨[⟨2, 20, 50⟩]⟩) := by
    rfl
  obtain ⟨rfl, -⟩ := Prod.mk.inj (Option.some.inj (hrun.symm.trans hr))
  refine ⟨hclock, hfits, ?_, answers', c', hr', hreads⟩
  obtain ⟨answer, hplace, h⟩ := hanswered (swept.take 2) (.purge 5) (swept.drop 3) rfl
  obtain rfl := Option.some.inj hplace
  exact h

end Runs

end QuoteFeed.Cache
