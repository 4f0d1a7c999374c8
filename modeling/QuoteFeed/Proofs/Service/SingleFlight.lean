import Mathlib.Data.List.Induction
import Mathlib.Data.List.Perm.Basic
import Mathlib.Tactic.Use
import QuoteFeed.Service.Schedule

/-!
# One fetch at a time

The refreshes of a catalog overlap in any order: a call begins, the fetch of a call is answered, or
a call is dropped (`Service.RefreshStep`).  A call begins a fetch only while none is in flight, and
the flag of the catalog says whether one is (`Service.SingleFlight`).  The snapshot is that of the
last fetch that succeeded (`Service.Fetched`).  The refresh that is carried out at once, and the
call that is given up, are runs of such steps.
-/

namespace QuoteFeed

/-- The fetch of the call is in flight. -/
def RefreshCall.isWaiting : RefreshCall → Bool
  | .waiting _ => true
  | .done _ => false

namespace Service

/-! ### Calls that overlap -/

/-- What happens to the refreshes of a catalog.  Calls are counted from the latest. -/
inductive RefreshStep where
  /-- A refresh is asked for. -/
  | call
  /-- The fetch of a call is answered. -/
  | answer (i : Nat) (answer : Except FetchError (List Market))
  /-- A call is dropped. -/
  | drop (i : Nat)
  /-- Time passes. -/
  | elapse (d : Nat)

variable (env : Environment) (s : Service)

/-- The fetch of the call number `i` is in flight. -/
def Waits (i : Nat) : Prop :=
  ∃ c, s.calls[i]? = some c ∧ c.isWaiting

instance (i : Nat) : Decidable (s.Waits i) :=
  decidable_of_iff (s.calls[i]?.any (·.isWaiting)) (by rw [Option.any_eq_true, Waits])

/-- The number of fetches in flight. -/
def inFlight : Nat :=
  s.calls.countP (·.isWaiting)

/-- The fetch of a call is answered, and the call ends. -/
def answerCall (i : Nat) (answer : Except FetchError (List Market)) : Service :=
  if s.Waits i then
    let (outcome, desk) := s.toDesk.endRefresh env answer
    { s.withDesk desk with calls := s.calls.set i (.done outcome) }
  else
    s

/-- A call is dropped.  If its fetch is in flight, the refresh is given up. -/
def dropCall (i : Nat) : Service :=
  let s' := if s.Waits i then s.withDesk s.toDesk.releaseRefresh else s
  { s' with calls := s.calls.eraseIdx i }

/-- The service after a step. -/
def refreshStep : RefreshStep → Service
  | .call => s.beginRefresh
  | .answer i answer => s.answerCall env i answer
  | .drop i => s.dropCall i
  | .elapse d => s.atTime (s.now + d)

/-- The service after steps. -/
def refreshRun (steps : List RefreshStep) : Service :=
  steps.foldl (refreshStep env) s

/-- The markets of a call that ends with success.  A fetch that is answered with markets makes it
succeed, unless their lifetime leads beyond the clock. -/
def fetched? : RefreshStep → Option (List Market)
  | .answer i (.ok ms) =>
    if s.Waits i ∧ s.now + env.settings.catalog.lifetime < Clock.limit then some ms else none
  | .answer _ (.error _) | .call | .drop _ | .elapse _ => none

/-- The markets of the calls of a run that end with success. -/
def fetched (s : Service) : List RefreshStep → List (List Market)
  | [] => []
  | a :: steps => (s.fetched? env a).toList ++ (s.refreshStep env a).fetched steps

variable {env s}

theorem refreshRun_concat (steps : List RefreshStep) (a : RefreshStep) :
  s.refreshRun env (steps ++ [a]) = (s.refreshRun env steps).refreshStep env a
  := List.foldl_append

theorem fetched_concat (steps : List RefreshStep) (a : RefreshStep) :
  s.fetched env (steps ++ [a]) =
    s.fetched env steps ++ ((s.refreshRun env steps).fetched? env a).toList
  := by
  induction steps generalizing s with
  | nil => simp [fetched, refreshRun]
  | cons b steps ih =>
    rw [List.cons_append, fetched, ih, fetched, List.append_assoc, refreshRun, refreshRun,
      List.foldl_cons]

/-! ### What a step does -/

/-- A call begins its fetch if none is in flight. -/
theorem beginRefresh_of_idle (h : s.catalog.refreshing = false) :
  s.beginRefresh =
    { s.countFetch.withDesk { s.toDesk with catalog := { s.catalog with refreshing := true } } with
      calls := .waiting s.source.answer :: s.calls }
  := by
  simp only [beginRefresh, Desk.beginRefresh, h]
  rfl

/-- Otherwise it ends at once with the live markets, and leaves a note. -/
theorem beginRefresh_of_refreshing (h : s.catalog.refreshing = true) :
  s.beginRefresh =
    { s.note .refreshSkipped with calls := .done (.markets (s.catalog.current s.now)) :: s.calls }
  := by
  simp only [beginRefresh, Desk.beginRefresh, h]
  rfl

/-- A refresh that is carried out at once is refused in the same way. -/
theorem refresh_of_refreshing (h : s.catalog.refreshing = true) :
  s.refresh env = (.markets (s.catalog.current s.now), s.note .refreshSkipped)
  := by
  simp only [refresh, Desk.beginRefresh, h]
  rfl

/-- The end of a fetch gives the refresh up, and keeps the markets if it succeeded. -/
theorem catalog_endRefresh (env : Environment) (d : Desk)
    (answer : Except FetchError (List Market)) :
  (d.endRefresh env answer).2.catalog.refreshing = false ∧
    (d.endRefresh env answer).2.catalog.snapshot.map (·.markets) =
      match answer with
      | .ok ms =>
        if d.now + env.settings.catalog.lifetime < Clock.limit then some ms
        else d.catalog.snapshot.map (·.markets)
      | .error _ => d.catalog.snapshot.map (·.markets)
  := by
  cases answer with
  | error e => exact ⟨rfl, rfl⟩
  | ok ms =>
    dsimp only
    rw [Desk.endRefresh, Clock.after?]
    split
    · rename_i hn
      split at hn
      · contradiction
      · rename_i hl
        rw [if_neg hl]
        exact ⟨rfl, rfl⟩
    · rename_i hn
      split at hn
      · rename_i hl
        rw [if_pos hl]
        exact ⟨rfl, rfl⟩
      · contradiction

/-- The calls after one that waited was answered: one fetch less is in flight. -/
theorem countP_set_done {calls : List RefreshCall} {i : Nat} {c : RefreshCall}
    (hc : calls[i]? = some c) (hw : c.isWaiting) (outcome : Desk.Refreshed) :
  (calls.set i (.done outcome)).countP (·.isWaiting) = calls.countP (·.isWaiting) - 1
  := by
  obtain ⟨hi, rfl⟩ := List.getElem?_eq_some_iff.1 hc
  rw [List.countP_set hi, if_pos hw]
  rfl

/-- The calls after one was dropped: one fetch less is in flight, if it waited. -/
theorem countP_eraseIdx {calls : List RefreshCall} {i : Nat} {c : RefreshCall}
    (hc : calls[i]? = some c) :
  calls.countP (·.isWaiting) =
    (calls.eraseIdx i).countP (·.isWaiting) + if c.isWaiting then 1 else 0
  := by
  obtain ⟨hi, rfl⟩ := List.getElem?_eq_some_iff.1 hc
  rw [← List.Perm.countP_eq _ (List.getElem_cons_eraseIdx_perm hi), List.countP_cons]

/-! ### The flag tells whether a fetch is in flight -/

/-- As many fetches are in flight as the flag of the catalog says: one, or none. -/
def SingleFlight (s : Service) : Prop :=
  s.inFlight = if s.catalog.refreshing then 1 else 0

theorem SingleFlight.refreshing_iff (h : s.SingleFlight) :
  s.catalog.refreshing = true ↔ s.inFlight = 1
  := by
  rw [SingleFlight] at h
  rw [h]
  cases s.catalog.refreshing with
  | false => simp
  | true => simp

theorem SingleFlight.idle_iff (h : s.SingleFlight) :
  s.catalog.refreshing = false ↔ s.inFlight = 0
  := by
  rw [SingleFlight] at h
  rw [h]
  cases s.catalog.refreshing with
  | false => simp
  | true => simp

theorem SingleFlight.le_one (h : s.SingleFlight) :
  s.inFlight ≤ 1
  := by
  rw [SingleFlight] at h
  rw [h]
  split
  · apply Nat.le_refl
  · apply Nat.zero_le

/-- A call whose fetch is in flight is the only one. -/
theorem SingleFlight.inFlight_eq (h : s.SingleFlight) {i : Nat} (hi : s.Waits i) :
  s.inFlight = 1
  := by
  obtain ⟨c, hc, hw⟩ := hi
  have hp : 0 < s.inFlight := List.countP_pos_iff.2 ⟨c, List.mem_of_getElem? hc, hw⟩
  apply Nat.le_antisymm h.le_one hp

theorem singleFlight_beginRefresh (h : s.SingleFlight) :
  s.beginRefresh.SingleFlight
  := by
  rw [SingleFlight] at h
  cases hr : s.catalog.refreshing with
  | false =>
    rw [beginRefresh_of_idle hr]
    simpa [SingleFlight, inFlight, hr, RefreshCall.isWaiting, withDesk, countFetch] using h
  | true =>
    rw [beginRefresh_of_refreshing hr]
    simpa [SingleFlight, inFlight, hr, RefreshCall.isWaiting, note] using h

/-- Whatever the answer to the fetch in flight is, no fetch is in flight afterwards. -/
theorem singleFlight_answerCall (h : s.SingleFlight) (i : Nat)
    (answer : Except FetchError (List Market)) :
  (s.answerCall env i answer).SingleFlight
  := by
  rw [answerCall]
  split
  · rename_i hi
    have hn := h.inFlight_eq hi
    obtain ⟨c, hc, hw⟩ := hi
    have he := (catalog_endRefresh env s.toDesk answer).1
    rw [SingleFlight]
    dsimp only
    rw [inFlight, countP_set_done hc hw, ← inFlight, hn]
    simp [withDesk, he]
  · apply h

/-- Nor is one after the call is dropped. -/
theorem singleFlight_dropCall (h : s.SingleFlight) (i : Nat) :
  (s.dropCall i).SingleFlight
  := by
  rw [dropCall]
  split
  · rename_i hi
    have hn := h.inFlight_eq hi
    obtain ⟨c, hc, hw⟩ := hi
    have he := countP_eraseIdx hc
    rw [inFlight] at hn
    rw [hn, if_pos hw] at he
    have he : (s.calls.eraseIdx i).countP (·.isWaiting) = 0 := by
      apply Nat.succ.inj he.symm
    apply he
  · rename_i hi
    have he : (s.calls.eraseIdx i).countP (·.isWaiting) = s.inFlight := by
      cases hc : s.calls[i]? with
      | none => rw [List.eraseIdx_of_length_le (List.getElem?_eq_none_iff.1 hc), inFlight]
      | some c =>
        have hw : ¬ c.isWaiting := fun hw => hi ⟨c, hc, hw⟩
        rw [inFlight, countP_eraseIdx hc, if_neg hw, Nat.add_zero]
    rw [SingleFlight, inFlight, he]
    apply h

theorem singleFlight_step (h : s.SingleFlight) (a : RefreshStep) :
  (s.refreshStep env a).SingleFlight
  := by
  cases a with
  | call => apply singleFlight_beginRefresh h
  | answer i answer => apply singleFlight_answerCall h
  | drop i => apply singleFlight_dropCall h
  | elapse d => apply h

/-! ### The snapshot is that of the last success -/

/-- The markets of the snapshot after a step: those of a call that ended with success by it, or
else those before. -/
theorem markets_refreshStep (a : RefreshStep) :
  (s.refreshStep env a).catalog.snapshot.map (·.markets) =
    (s.fetched? env a).or (s.catalog.snapshot.map (·.markets))
  := by
  cases a with
  | call =>
    rw [refreshStep, show s.fetched? env .call = none from rfl, Option.none_or]
    cases hr : s.catalog.refreshing with
    | false =>
      rw [beginRefresh_of_idle hr]
      rfl
    | true =>
      rw [beginRefresh_of_refreshing hr]
      rfl
  | answer i answer =>
    rw [refreshStep, answerCall]
    split
    · rename_i hi
      apply Eq.trans (catalog_endRefresh env s.toDesk answer).2
      cases answer with
      | error e => rfl
      | ok ms =>
        rw [fetched?]
        by_cases hl : s.now + env.settings.catalog.lifetime < Clock.limit
        · simp [hi, hl]
        · simp [hl]
    · rename_i hi
      cases answer with
      | error e => rfl
      | ok ms => simp [fetched?, hi]
  | drop i =>
    rw [refreshStep, dropCall, show s.fetched? env (.drop i) = none from rfl, Option.none_or]
    split
    · rfl
    · rfl
  | elapse d => rfl

/-- What is known after refreshes: how many are under way, and whose markets are at hand. -/
structure Fetched (history : List (List Market)) (s : Service) : Prop where
  flight : s.SingleFlight
  markets_eq : s.catalog.snapshot.map (·.markets) = history.getLast?

theorem fetched_step {history : List (List Market)} (h : Fetched history s) (a : RefreshStep) :
  Fetched (history ++ (s.fetched? env a).toList) (s.refreshStep env a)
  where
  flight := singleFlight_step h.flight a
  markets_eq := by
    rw [markets_refreshStep, h.markets_eq, List.getLast?_append]
    cases s.fetched? env a with
    | none => simp
    | some ms => simp

theorem fetched_run (env : Environment) (markets : List Market) (steps : List RefreshStep) :
  Fetched ((initial env markets).fetched env steps) ((initial env markets).refreshRun env steps)
  := by
  induction steps using List.reverseRecOn with
  | nil => exact ⟨rfl, rfl⟩
  | append_singleton steps a ih =>
    rw [fetched_concat, refreshRun_concat]
    apply fetched_step ih

/-! ### Refreshes of the service as steps -/

/-- A call that is given up is dropped. -/
theorem abortRefresh_eq :
  s.abortRefresh = s.dropCall 0
  := by
  rw [abortRefresh, dropCall]
  cases hc : s.calls with
  | nil =>
    obtain ⟨stream, source, demand, running, refreshDue, sweepDue, calls⟩ := s
    obtain rfl : calls = [] := hc
    simp [Waits]
  | cons c calls =>
    cases c with
    | waiting answer => simp [Waits, hc, RefreshCall.isWaiting]
    | done outcome => simp [Waits, hc, RefreshCall.isWaiting]

/-- A refresh that is carried out at once is a call whose fetch is answered before anything else
happens. -/
theorem refresh_eq (env : Environment) (s : Service) :
  (s.refresh env).2 = s.refreshRun env [.call, .answer 0 s.source.answer, .drop 0]
  := by
  simp only [refreshRun, List.foldl_cons, List.foldl_nil, refreshStep]
  cases hr : s.catalog.refreshing with
  | false =>
    rw [beginRefresh_of_idle hr, answerCall, if_pos ⟨_, rfl, rfl⟩, dropCall, if_neg]
    · simp only [refresh, Desk.beginRefresh, hr]
      rfl
    · rintro ⟨c, hc, hw⟩
      obtain rfl := Option.some.inj hc
      contradiction
  | true =>
    have hn (s' : Service) (outcome : Desk.Refreshed) (calls : List RefreshCall) :
        ¬ { s' with calls := .done outcome :: calls }.Waits 0 := by
      rintro ⟨c, hc, hw⟩
      obtain rfl := Option.some.inj hc
      contradiction
    rw [beginRefresh_of_refreshing hr, refresh_of_refreshing hr, answerCall, if_neg (hn _ _ _),
      dropCall, if_neg (hn _ _ _)]
    rfl

/-- However the refreshes of a catalog overlap, at most one fetch is in flight, and the flag says
whether one is.  Its end gives the flag back, be it a success, a failure or that the call is
dropped.  A call makes a request if no fetch is in flight, and otherwise changes nothing and ends
with the live markets.  The snapshot is that of the last call that ended with success. -/
theorem single_flight_after_run (env : Environment) (markets : List Market)
    (steps : List RefreshStep) :
  let s := (initial env markets).refreshRun env steps
  s.inFlight ≤ 1 ∧ (s.catalog.refreshing = true ↔ s.inFlight = 1) ∧
    (∀ i, s.Waits i →
      (∀ answer, (s.answerCall env i answer).catalog.refreshing = false) ∧
        (s.dropCall i).catalog.refreshing = false) ∧
    (s.inFlight = 0 →
      s.beginRefresh.inFlight = 1 ∧ s.beginRefresh.source.fetches = s.source.fetches + 1) ∧
    (s.inFlight = 1 →
      s.beginRefresh =
          { s.note .refreshSkipped with
            calls := .done (.markets (s.catalog.current s.now)) :: s.calls } ∧
        s.refresh env = (.markets (s.catalog.current s.now), s.note .refreshSkipped)) ∧
    s.catalog.snapshot.map (·.markets) = ((initial env markets).fetched env steps).getLast?
  := by
  intro s
  obtain ⟨hf, hm⟩ := fetched_run env markets steps
  refine ⟨hf.le_one, hf.refreshing_iff, ?_, ?_, ?_, hm⟩
  · intro i hi
    constructor
    · intro answer
      rw [answerCall, if_pos hi]
      apply (catalog_endRefresh env s.toDesk answer).1
    · rw [dropCall, if_pos hi]
      rfl
  · intro h
    rw [beginRefresh_of_idle (hf.idle_iff.2 h)]
    constructor
    · apply Eq.trans (List.countP_cons_of_pos rfl)
      apply congrArg Nat.succ h
    · rfl
  · intro h
    have hr := hf.refreshing_iff.2 h
    exact ⟨beginRefresh_of_refreshing hr, refresh_of_refreshing hr⟩

end Service

end QuoteFeed
