/-!
# Lists that differ by insertions

`DifferBy P` relates two lists of which one becomes the other when elements with `P` are inserted and
removed.  What passes over all such elements does not tell the two apart (`DifferBy.filterMap_eq`).
-/

namespace QuoteFeed

variable {α β : Type} {P : α → Prop}

/-- The lists differ by elements with `P` alone: one becomes the other when such elements are
inserted and removed, any number of them at any positions. -/
inductive DifferBy (P : α → Prop) : List α → List α → Prop where
  | nil : DifferBy P [] []
  | cons (a : α) {l l' : List α} (h : DifferBy P l l') : DifferBy P (a :: l) (a :: l')
  | inserted {a : α} {l l' : List α} (ha : P a) (h : DifferBy P l l') : DifferBy P l (a :: l')
  | removed {a : α} {l l' : List α} (ha : P a) (h : DifferBy P l l') : DifferBy P (a :: l) l'

/-- What passes over the elements with `P` finds the same in both lists. -/
theorem DifferBy.filterMap_eq {l l' : List α} (h : DifferBy P l l') {f : α → Option β}
    (hf : ∀ a, P a → f a = none) :
  l.filterMap f = l'.filterMap f
  := by
  induction h with
  | nil => rfl
  | cons a _ ih => rw [List.filterMap_cons, List.filterMap_cons, ih]
  | inserted ha _ ih => rw [List.filterMap_cons_none (hf _ ha), ih]
  | removed ha _ ih => rw [List.filterMap_cons_none (hf _ ha), ih]

end QuoteFeed
