import QuoteFeed.Market.Basic

/-!
# Sets of markets

A finite set of market names, kept as their list in ascending order.  Two sets with the same
members are equal (`IdSet.ext`), and the order of the list is the order in which the members are
announced to the exchange.
-/

namespace QuoteFeed

namespace MarketId

theorem lt_trans {a b c : MarketId} (h : a < b) (k : b < c) :
  a < c
  := String.lt_trans (a := a.name) (b := b.name) (c := c.name) h k

theorem lt_irrefl (a : MarketId) :
  ¬ a < a
  := String.lt_irrefl a.name

theorem lt_of_not_lt {a b : MarketId} (h : ¬ a < b) (k : a ≠ b) :
  b < a
  := by
  have hne : b.name ≠ a.name := fun e => k (by cases a; cases b; simp_all)
  have hle : b.name ≤ a.name := Std.not_lt.1 (show ¬ a.name < b.name from h)
  exact show b.name < a.name from Std.lt_of_le_of_ne hle hne

end MarketId

/-- A finite set of market names. -/
structure IdSet where
  ids : List MarketId
  sorted : ids.Pairwise (· < ·)
  deriving DecidableEq

namespace IdSet

instance : Membership MarketId IdSet := ⟨fun s a => a ∈ s.ids⟩

instance (a : MarketId) (s : IdSet) : Decidable (a ∈ s) :=
  inferInstanceAs (Decidable (a ∈ s.ids))

theorem mem_def {a : MarketId} {s : IdSet} :
  a ∈ s ↔ a ∈ s.ids
  := Iff.rfl

/-- The set without members. -/
def empty : IdSet := ⟨[], .nil⟩

instance : Inhabited IdSet := ⟨empty⟩

@[simp]
theorem not_mem_empty (a : MarketId) :
  ¬ a ∈ empty
  := List.not_mem_nil

/-- The number of members. -/
def size (s : IdSet) : Nat := s.ids.length

/-- The set has no members. -/
def isEmpty (s : IdSet) : Bool := s.ids.isEmpty

/-! ### Insertion -/

/-- A name put in its place in an ascending list, unless it is there. -/
def place (a : MarketId) : List MarketId → List MarketId
  | [] => [a]
  | b :: l => if a < b then a :: b :: l else if a = b then b :: l else b :: place a l

theorem mem_place {a b : MarketId} {l : List MarketId} :
  b ∈ place a l ↔ b = a ∨ b ∈ l
  := by
  induction l with
  | nil => simp [place]
  | cons c l ih =>
    unfold place
    split
    · simp
    · split
      · simp_all
      · simp only [List.mem_cons, ih]
        exact or_left_comm

theorem pairwise_place (a : MarketId) {l : List MarketId} (h : l.Pairwise (· < ·)) :
  (place a l).Pairwise (· < ·)
  := by
  induction l with
  | nil => simp [place]
  | cons c l ih =>
    have ⟨hc, hl⟩ := List.pairwise_cons.1 h
    unfold place
    split
    · rename_i hac
      refine List.pairwise_cons.2 ⟨fun b hb => ?_, h⟩
      rcases List.mem_cons.1 hb with rfl | hb
      · exact hac
      · exact MarketId.lt_trans hac (hc b hb)
    · rename_i hac
      split
      · exact h
      · rename_i hne
        refine List.pairwise_cons.2 ⟨fun b hb => ?_, ih hl⟩
        rcases mem_place.1 hb with rfl | hb
        · exact MarketId.lt_of_not_lt hac hne
        · exact hc b hb

/-- The set with one more member. -/
def insert (s : IdSet) (a : MarketId) : IdSet :=
  ⟨place a s.ids, pairwise_place a s.sorted⟩

@[simp]
theorem mem_insert {a b : MarketId} {s : IdSet} :
  b ∈ s.insert a ↔ b = a ∨ b ∈ s
  := mem_place

/-- The set of the names in a list. -/
def ofList (l : List MarketId) : IdSet :=
  l.foldl insert empty

theorem mem_foldl_insert {b : MarketId} {l : List MarketId} {s : IdSet} :
  b ∈ l.foldl insert s ↔ b ∈ s ∨ b ∈ l
  := by
  induction l generalizing s with
  | nil => simp
  | cons a l ih =>
    simp only [List.foldl_cons, ih, mem_insert, List.mem_cons]
    constructor
    · rintro ((h | h) | h)
      · exact .inr (.inl h)
      · exact .inl h
      · exact .inr (.inr h)
    · rintro (h | h | h)
      · exact .inl (.inr h)
      · exact .inl (.inl h)
      · exact .inr h

@[simp]
theorem mem_ofList {b : MarketId} {l : List MarketId} :
  b ∈ ofList l ↔ b ∈ l
  := by
  simp [ofList, mem_foldl_insert]

/-! ### Restriction -/

/-- The members with a property. -/
def filter (s : IdSet) (p : MarketId → Bool) : IdSet :=
  ⟨s.ids.filter p, s.sorted.filter p⟩

@[simp]
theorem mem_filter {a : MarketId} {s : IdSet} {p : MarketId → Bool} :
  a ∈ s.filter p ↔ a ∈ s ∧ p a
  := List.mem_filter

/-- The set without a member. -/
def erase (s : IdSet) (a : MarketId) : IdSet :=
  s.filter (· ≠ a)

@[simp]
theorem mem_erase {a b : MarketId} {s : IdSet} :
  b ∈ s.erase a ↔ b ∈ s ∧ b ≠ a
  := by
  simp [erase]

/-- The members of one set that are not in another. -/
def diff (s t : IdSet) : IdSet :=
  s.filter (· ∉ t)

@[simp]
theorem mem_diff {a : MarketId} {s t : IdSet} :
  a ∈ s.diff t ↔ a ∈ s ∧ a ∉ t
  := by
  simp [diff]

/-! ### Equality -/

/-- Ascending lists with the same members are equal. -/
theorem eq_of_mem_iff {l k : List MarketId} (hl : l.Pairwise (· < ·)) (hk : k.Pairwise (· < ·))
    (h : ∀ a, a ∈ l ↔ a ∈ k) :
  l = k
  := by
  induction l generalizing k with
  | nil =>
    cases k with
    | nil => rfl
    | cons b k => exact absurd ((h b).2 List.mem_cons_self) List.not_mem_nil
  | cons a l ih =>
    cases k with
    | nil => exact absurd ((h a).1 List.mem_cons_self) List.not_mem_nil
    | cons b k =>
      have ⟨ha, hl'⟩ := List.pairwise_cons.1 hl
      have ⟨hb, hk'⟩ := List.pairwise_cons.1 hk
      have hab : a = b := by
        rcases List.mem_cons.1 ((h a).1 List.mem_cons_self) with e | hak
        · exact e
        · rcases List.mem_cons.1 ((h b).2 List.mem_cons_self) with e | hbl
          · exact e.symm
          · exact absurd (MarketId.lt_trans (ha b hbl) (hb a hak)) (MarketId.lt_irrefl a)
      subst hab
      congr 1
      refine ih hl' hk' fun c => ?_
      have hc := h c
      simp only [List.mem_cons] at hc
      constructor
      · intro hcl
        rcases hc.1 (.inr hcl) with rfl | hck
        · exact absurd (ha c hcl) (MarketId.lt_irrefl c)
        · exact hck
      · intro hck
        rcases hc.2 (.inr hck) with rfl | hcl
        · exact absurd (hb c hck) (MarketId.lt_irrefl c)
        · exact hcl

/-- Sets with the same members are equal. -/
theorem ext {s t : IdSet} (h : ∀ a, a ∈ s ↔ a ∈ t) :
  s = t
  := by
  cases s
  cases t
  simp only [IdSet.mk.injEq]
  exact eq_of_mem_iff ‹_› ‹_› h

end IdSet

end QuoteFeed
