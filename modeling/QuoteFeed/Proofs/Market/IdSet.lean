import Mathlib.Data.Finset.Card
import Mathlib.Data.Finset.SymmDiff
import QuoteFeed.Market.Changes

/-!
# More on sets of markets

A set of markets lists each member once.  Carrying out the changes that lead from one set to
another leads there (`foldl_apply_calls`), with one call for each member of the symmetric
difference (`size_between`).
-/

namespace QuoteFeed

namespace IdSet

variable (s t : IdSet)

theorem nodup_ids :
  s.ids.Nodup
  := by
  apply s.sorted.imp
  rintro a _ h rfl
  apply MarketId.lt_irrefl a h

/-- The members as a finite set. -/
def toFinset : Finset MarketId := s.ids.toFinset

@[simp]
theorem mem_toFinset {a : MarketId} {s : IdSet} :
  a ∈ s.toFinset ↔ a ∈ s
  := List.mem_toFinset

theorem card_toFinset :
  s.toFinset.card = s.size
  := List.toFinset_card_of_nodup s.nodup_ids

/-- The set of the names in a list without duplicates has as many members. -/
theorem size_ofList {l : List MarketId} (h : l.Nodup) :
  (ofList l).size = l.length
  := by
  have hl : (ofList l).toFinset = l.toFinset := by
    ext a
    simp
  rw [← card_toFinset, hl, List.toFinset_card_of_nodup h]

theorem toFinset_diff :
  (s.diff t).toFinset = s.toFinset \ t.toFinset
  := by
  ext a
  simp

/-! ### Carrying out changes -/

theorem mem_foldl_apply_unsubscribe {a : MarketId} {l : List MarketId} {s : IdSet} :
  a ∈ (l.map Call.unsubscribe).foldl apply s ↔ a ∈ s ∧ a ∉ l
  := by
  induction l generalizing s with
  | nil => simp
  | cons b l ih =>
    rw [List.map_cons, List.foldl_cons, ih, apply, mem_erase, List.mem_cons, not_or, and_assoc]

theorem mem_foldl_apply_subscribe {a : MarketId} {l : List MarketId} {s : IdSet} :
  a ∈ (l.map Call.subscribe).foldl apply s ↔ a ∈ s ∨ a ∈ l
  := by
  induction l generalizing s with
  | nil => simp
  | cons b l ih =>
    rw [List.map_cons, List.foldl_cons, ih, apply, mem_insert, List.mem_cons, or_comm (a := a = b),
      or_assoc]

/-- The changes that lead from one set to another lead there. -/
theorem foldl_apply_calls :
  (Changes.between t s).calls.foldl apply s = t
  := by
  apply ext
  intro a
  rw [Changes.calls, List.foldl_append, mem_foldl_apply_subscribe, mem_foldl_apply_unsubscribe,
    ← mem_def, ← mem_def, Changes.between, mem_diff, mem_diff]
  by_cases hs : a ∈ s
  · simp [hs]
  · simp [hs]

/-- A call is due if it adds a member that is missing, or removes one. -/
def Due (s : IdSet) : Call → Prop
  | .subscribe id => id ∉ s
  | .unsubscribe id => id ∈ s

/-- Every call is due when its turn comes. -/
def AllDue : IdSet → List Call → Prop
  | _, [] => True
  | s, c :: cs => s.Due c ∧ (s.apply c).AllDue cs

theorem allDue_append {s : IdSet} {cs ds : List Call} :
  s.AllDue (cs ++ ds) ↔ s.AllDue cs ∧ (cs.foldl apply s).AllDue ds
  := by
  induction cs generalizing s with
  | nil => simp [AllDue]
  | cons c cs ih => rw [List.cons_append, AllDue, ih, AllDue, and_assoc, List.foldl_cons]

theorem allDue_unsubscribe {s : IdSet} {l : List MarketId} (hl : l.Nodup)
    (hs : ∀ a ∈ l, a ∈ s) :
  s.AllDue (l.map .unsubscribe)
  := by
  induction l generalizing s with
  | nil => trivial
  | cons a l ih =>
    obtain ⟨ha, hl⟩ := List.nodup_cons.1 hl
    use hs a List.mem_cons_self
    apply ih hl
    intro b hb
    rw [apply, mem_erase]
    use hs b (List.mem_cons_of_mem a hb)
    rintro rfl
    apply ha hb

theorem allDue_subscribe {s : IdSet} {l : List MarketId} (hl : l.Nodup)
    (hs : ∀ a ∈ l, a ∉ s) :
  s.AllDue (l.map .subscribe)
  := by
  induction l generalizing s with
  | nil => trivial
  | cons a l ih =>
    obtain ⟨ha, hl⟩ := List.nodup_cons.1 hl
    use hs a List.mem_cons_self
    apply ih hl
    intro b hb
    rw [apply, mem_insert, not_or]
    constructor
    · rintro rfl
      apply ha hb
    · apply hs b (List.mem_cons_of_mem a hb)

/-- No call is made in vain on the way from one set to another. -/
theorem allDue_calls :
  s.AllDue (Changes.between t s).calls
  := by
  rw [Changes.calls, allDue_append]
  constructor
  · apply allDue_unsubscribe (nodup_ids _)
    intro a ha
    exact (mem_diff.1 ha).1
  · apply allDue_subscribe (nodup_ids _)
    intro a ha
    rw [mem_foldl_apply_unsubscribe, not_and_or]
    left
    exact (mem_diff.1 ha).2

theorem size_eq_zero {s : IdSet} :
  s.size = 0 ↔ s = .empty
  := by
  rw [size, List.length_eq_zero_iff]
  constructor
  · intro h
    apply ext
    intro a
    rw [mem_def, h]
    rfl
  · rintro rfl
    rfl

/-- One call is needed for each member of the symmetric difference. -/
theorem size_between :
  (Changes.between t s).size = (symmDiff t.toFinset s.toFinset).card
  := by
  have h : symmDiff t.toFinset s.toFinset = (t.diff s).toFinset ∪ (s.diff t).toFinset := by
    rw [toFinset_diff, toFinset_diff]
    rfl
  have hd : Disjoint (t.diff s).toFinset (s.diff t).toFinset := by
    rw [Finset.disjoint_left]
    intro a ha hb
    rw [mem_toFinset, mem_diff] at ha hb
    apply ha.2 hb.1
  rw [h, Finset.card_union_of_disjoint hd, card_toFinset, card_toFinset]
  rfl

end IdSet

end QuoteFeed
