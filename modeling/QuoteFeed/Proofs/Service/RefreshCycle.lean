import QuoteFeed.Proofs.Service.SingleFlight
import QuoteFeed.Proofs.Stream.Run

/-!
# The delay after a refresh

The loop that refreshes the catalog chooses its next time from the outcome of its own refresh
(`Desk.Refreshed.delay?`).  Here the refresh of the loop is one call among others, followed through
their steps until it returns (`Service.Returns`).  While it waits, no fetch but its own completes
(`Service.fetched_of_returns`), so that its delay tells whether the catalog was fetched meanwhile.
A refresh that is refused tells nothing: it returns at once, and the loop waits as long as after a
success, be there one or not (`Service.hour_without_success`).
-/

namespace QuoteFeed

namespace Desk.Refreshed

/-- How long the loop waits after a refresh.  It dies of one that leads beyond the clock. -/
def delay? (env : Environment) : Refreshed → Option Nat
  | .markets _ => some env.settings.catalog.refresh
  | .failed _ => some env.settings.catalog.retry
  | .overflow => none

/-- The markets of a refresh that ended with success. -/
def markets? : Refreshed → Option (List Market)
  | .markets ms => some ms
  | .failed _ | .overflow => none

/-- The loop waits for the time between refreshes after a success, and else for that to a retry. -/
theorem eq_of_delay? {env : Environment} {outcome : Refreshed} {d : Nat}
    (h : outcome.delay? env = some d) :
  d = if outcome.markets?.toList = [] then env.settings.catalog.retry
    else env.settings.catalog.refresh
  := by
  cases outcome with
  | markets ms => exact (Option.some.inj h).symm
  | failed e => exact (Option.some.inj h).symm
  | overflow => cases h

end Desk.Refreshed

namespace Service

/-- The number of a call after a step, if it is not the one that the step drops. -/
def RefreshStep.place? (i : Nat) : RefreshStep → Option Nat
  | .call => some (i + 1)
  | .drop j => if i = j then none else if j < i then some (i - 1) else some i
  | .answer _ _ | .elapse _ => some i

variable {env : Environment} {s : Service} {i j : Nat} {a : RefreshStep}
  {steps : List RefreshStep} {outcome : Desk.Refreshed}

/-- The call number `i` waits until it returns with the last of these steps. -/
inductive Returns (env : Environment) :
    Service → Nat → List RefreshStep → Desk.Refreshed → Prop where
  | now {s : Service} {i : Nat} {outcome : Desk.Refreshed}
      (h : s.calls[i]? = some (.done outcome)) : Returns env s i [] outcome
  | later {s : Service} {i j : Nat} {a : RefreshStep} {steps : List RefreshStep}
      {outcome : Desk.Refreshed} (hw : s.Waits i) (hp : a.place? i = some j)
      (h : Returns env (s.refreshStep env a) j steps outcome) : Returns env s i (a :: steps) outcome

/-- The refresh of the loop is a refresh, and the delay after it follows from its outcome. -/
theorem fst_refreshCycle (env : Environment) (s : Service) :
  (s.refreshCycle env).1 = (s.refresh env).1.delay? env
  := by
  rw [refreshCycle]
  split
  · rename_i e
    rw [e]
    rfl
  · rename_i e
    rw [e]
    rfl
  · rename_i e
    rw [e]
    rfl

/-! ### A call among others -/

theorem not_waits_of_done (h : s.calls[i]? = some (.done outcome)) :
  ¬ s.Waits i
  := by
  rintro ⟨c, hc, hw⟩
  obtain rfl := Option.some.inj (h.symm.trans hc)
  contradiction

/-- A call that is done returns at once. -/
theorem returns_iff_of_done {outcome' : Desk.Refreshed}
    (h : s.calls[i]? = some (.done outcome)) :
  s.Returns env i steps outcome' ↔ steps = [] ∧ outcome' = outcome
  := by
  constructor
  · intro hr
    cases hr with
    | now h' =>
      obtain e := Option.some.inj (h'.symm.trans h)
      exact ⟨rfl, RefreshCall.done.inj e⟩
    | later hw => apply absurd hw (not_waits_of_done h)
  · rintro ⟨rfl, rfl⟩
    apply Returns.now h

/-- Only one call waits. -/
theorem SingleFlight.waits_unique (h : s.SingleFlight) (hi : s.Waits i) (hj : s.Waits j) :
  i = j
  := by
  have hn := h.inFlight_eq hi
  obtain ⟨c, hc, hw⟩ := hi
  obtain ⟨c', hc', hw'⟩ := hj
  rw [inFlight, countP_eraseIdx hc, if_pos hw] at hn
  by_contra hne
  have hm : c' ∈ s.calls.eraseIdx i := List.mem_eraseIdx_iff_getElem?.2 ⟨j, Ne.symm hne, hc'⟩
  apply List.countP_eq_zero.1 (Nat.succ.inj hn) c' hm hw'

/-- The answer to the fetch of a call is what the call returns. -/
theorem calls_answerCall (hi : s.Waits i) (answer : Except FetchError (List Market)) :
  (s.answerCall env i answer).calls[i]? = some (.done (s.toDesk.endRefresh env answer).1)
  := by
  rw [answerCall, if_pos hi]
  obtain ⟨c, hc, -⟩ := hi
  obtain ⟨hlt, -⟩ := List.getElem?_eq_some_iff.1 hc
  apply List.getElem?_set_self hlt

theorem returns_answer (hi : s.Waits i) (answer : Except FetchError (List Market)) :
  s.Returns env i [.answer i answer] (s.toDesk.endRefresh env answer).1
  := Returns.later hi rfl (Returns.now (calls_answerCall hi answer))

theorem fetched?_answer (hi : s.Waits i) (answer : Except FetchError (List Market)) :
  s.fetched? env (.answer i answer) = (s.toDesk.endRefresh env answer).1.markets?
  := by
  cases answer with
  | error e => rfl
  | ok ms =>
    rw [fetched?, Desk.endRefresh, Clock.after?]
    by_cases hl : s.now + env.settings.catalog.lifetime < Clock.limit
    · rw [if_pos ⟨hi, hl⟩, if_pos hl]
      rfl
    · rw [if_neg (fun h => hl h.2), if_neg hl]
      rfl

/-- Steps of the others leave a call waiting, and complete no fetch. -/
theorem waits_step (hf : s.SingleFlight) (hi : s.Waits i) (hp : a.place? i = some j)
    (ha : ∀ answer, a ≠ .answer i answer) :
  (s.refreshStep env a).Waits j ∧ s.fetched? env a = none
  := by
  have others {k : Nat} (hk : i ≠ k) : ¬ s.Waits k := fun h => hk (hf.waits_unique hi h)
  cases a with
  | call =>
    obtain rfl := Option.some.inj hp
    have hr := hf.refreshing_iff.2 (hf.inFlight_eq hi)
    rw [refreshStep, beginRefresh_of_refreshing hr]
    exact ⟨hi, rfl⟩
  | answer k answer =>
    obtain rfl := Option.some.inj hp
    have hk := others fun e => ha answer (by rw [e])
    rw [refreshStep, answerCall, if_neg hk]
    use hi
    cases answer with
    | error e => rfl
    | ok ms => exact if_neg fun h => hk h.1
  | drop k =>
    rw [RefreshStep.place?] at hp
    split at hp
    · cases hp
    · rename_i hne
      rw [refreshStep, dropCall, if_neg (others hne)]
      refine ⟨?_, rfl⟩
      obtain ⟨c, hc, hw⟩ := hi
      refine ⟨c, ?_, hw⟩
      dsimp only
      rw [List.getElem?_eraseIdx]
      split at hp
      · obtain rfl := Option.some.inj hp
        rw [if_neg (by omega), show i - 1 + 1 = i by omega, hc]
      · obtain rfl := Option.some.inj hp
        rw [if_pos (by omega), hc]
  | elapse d =>
    obtain rfl := Option.some.inj hp
    exact ⟨hi, rfl⟩

/-- While a call waits, the only fetch that can complete with success is its own. -/
theorem fetched_of_returns (hr : s.Returns env i steps outcome) (hf : s.SingleFlight)
    (hi : s.Waits i) :
  s.fetched env steps = outcome.markets?.toList
  := by
  induction hr with
  | now h => apply absurd hi (not_waits_of_done h)
  | @later s i j a steps outcome hw hp hr ih =>
    rw [fetched]
    by_cases ha : ∃ answer, a = .answer i answer
    · obtain ⟨answer, rfl⟩ := ha
      obtain rfl := Option.some.inj hp
      obtain ⟨rfl, rfl⟩ := (returns_iff_of_done (calls_answerCall hi answer)).1 hr
      rw [fetched?_answer hi, fetched, List.append_nil]
    · obtain ⟨hj, hn⟩ := waits_step hf hi hp fun answer e => ha ⟨answer, e⟩
      rw [hn, ih (singleFlight_step hf a) hj]
      rfl

/-! ### The delay of the loop -/

/-- However the refreshes of a catalog overlap, let the loop make its refresh, and wait as long as
the outcome says.

If no fetch is in flight, it makes one.  When this returns, the loop waits for the time between
refreshes exactly if a fetch was completed with success since the call, which is then its own, and
for the time to a retry otherwise.

If a fetch is in flight, the refresh is refused: it returns at once, before any fetch is completed,
and the loop waits for the time between refreshes whatever becomes of the fetch.

A call that waits returns when its fetch is answered. -/
theorem delay_amid_calls (env : Environment) (markets : List Market)
    (before : List RefreshStep) :
  let s := (initial env markets).refreshRun env before
  let called := s.refreshStep env .call
  (s.refreshCycle env).1 = (s.refresh env).1.delay? env ∧
    (s.inFlight = 0 → called.Waits 0 ∧ ∀ between outcome, called.Returns env 0 between outcome →
      called.fetched env between = outcome.markets?.toList ∧
        ∀ d, outcome.delay? env = some d →
          d = if called.fetched env between = [] then env.settings.catalog.retry
            else env.settings.catalog.refresh) ∧
    (0 < s.inFlight →
      (s.refreshCycle env).1 = some env.settings.catalog.refresh ∧
        ∀ between outcome, called.Returns env 0 between outcome ↔
          between = [] ∧ outcome = .markets (s.catalog.current s.now)) ∧
    ∀ i, s.Waits i →
      (∀ e, s.Returns env i [.answer i (.error e)] (.failed e)) ∧
        ∀ ms, s.now + env.settings.catalog.lifetime < Clock.limit →
          s.Returns env i [.answer i (.ok ms)] (.markets ms)
  := by
  intro s called
  have hf : s.SingleFlight := (fetched_run env markets before).flight
  refine ⟨fst_refreshCycle env s, ?_, ?_, ?_⟩
  · intro hn
    have hw : called.Waits 0 := by
      refine ⟨.waiting s.source.answer, ?_, rfl⟩
      rw [show called = s.beginRefresh from rfl, beginRefresh_of_idle (hf.idle_iff.2 hn)]
      rfl
    use hw
    intro between outcome hr
    have hfetched := fetched_of_returns hr (singleFlight_step hf .call) hw
    use hfetched
    intro d hd
    rw [hfetched]
    apply Desk.Refreshed.eq_of_delay? hd
  · intro hn
    have hr := hf.refreshing_iff.2 (Nat.le_antisymm hf.le_one hn)
    constructor
    · rw [fst_refreshCycle, refresh_of_refreshing hr]
      rfl
    · intro between outcome
      apply returns_iff_of_done
      rw [show called = s.beginRefresh from rfl, beginRefresh_of_refreshing hr]
      rfl
  · intro i hi
    constructor
    · intro e
      apply returns_answer hi
    · intro ms hl
      have h : s.Returns env i [.answer i (.ok ms)] _ := returns_answer hi (.ok ms)
      rw [Desk.endRefresh, Clock.after?, if_pos hl] at h
      apply h

/-- While a fetch is in flight that is going to fail, the loop makes its refresh.  It is to wait for
an hour and not for the ten seconds to a retry, though no fetch ever succeeded. -/
theorem hour_without_success :
  let s := (initial .standard []).refreshRun .standard [.call]
  let called := s.refreshStep .standard .call
  called.Returns .standard 0 [] (.markets []) ∧ called.fetched .standard [] = [] ∧
    (Desk.Refreshed.markets []).delay? .standard = some (Duration.seconds 3600) ∧
    Environment.standard.settings.catalog.retry = Duration.seconds 10 ∧
    (initial .standard []).fetched .standard [.call, .call, .answer 1 (.error Source.failure)] = []
  := ⟨Returns.now rfl, rfl, rfl, rfl, rfl⟩

end Service

end QuoteFeed
