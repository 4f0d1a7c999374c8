import Mathlib.Logic.Basic
import QuoteFeed.Proofs.Insertions
import QuoteFeed.Quote.Average

/-!
# Levels without size

A level whose size is zero adds nothing to the price of a side (`averagePrice?_of_differBy`).  It
does leave a trace in the sums: a sum that is zero takes over the sign and the places of the zero that
is added to it.  So the sums of two sides that differ by such levels are the same only up to the form
of a zero (`Decimal.SameButZero`), and neither the sums that follow nor the quotient at the end tell
two zeros apart.
-/

namespace QuoteFeed

/-- Results that are related are continued alike. -/
theorem rel_bind {α α' β β' : Type} {r : α → α' → Prop} {s : β → β' → Prop} {x : Option α}
    {x' : Option α'} (h : Option.Rel r x x') {f : α → Option β} {f' : α' → Option β'}
    (hf : ∀ a a', r a a' → Option.Rel s (f a) (f' a')) :
  Option.Rel s (x >>= f) (x' >>= f')
  := by
  cases h with
  | none => exact .none
  | some h => exact hf _ _ h

namespace Decimal

/-- The decimals are the same, up to the sign and the places of a zero. -/
def SameButZero (a b : Decimal) : Prop :=
  a = b ∨ a.mantissa = 0 ∧ b.mantissa = 0

variable {a a' b c : Decimal}

theorem SameButZero.refl (a : Decimal) : SameButZero a a := Or.inl rfl

theorem SameButZero.symm (h : SameButZero a b) :
  SameButZero b a
  := by
  obtain rfl | ⟨ha, hb⟩ := h
  · exact .refl a
  · exact Or.inr ⟨hb, ha⟩

theorem SameButZero.trans (hab : SameButZero a b) (hbc : SameButZero b c) :
  SameButZero a c
  := by
  obtain rfl | ⟨ha, hb⟩ := hab
  · exact hbc
  · obtain rfl | ⟨-, hc⟩ := hbc
    · exact Or.inr ⟨ha, hb⟩
    · exact Or.inr ⟨ha, hc⟩

/-- What is not zero has one form. -/
theorem SameButZero.eq (h : SameButZero a b) (ha : a.mantissa ≠ 0) :
  a = b
  := by
  obtain rfl | ⟨hz, -⟩ := h
  · rfl
  · contradiction

/-- A sum with a zero is what the zero was added to. -/
theorem exists_add?_of_zero (a : Decimal) (hb : b.mantissa = 0) :
  ∃ c, a.add? b = some c ∧ SameButZero c a
  := by
  rw [add?]
  by_cases ha : a.mantissa = 0
  · rw [if_pos ha]
    exact ⟨b, rfl, Or.inr ⟨hb, ha⟩⟩
  · rw [if_neg ha, if_pos hb]
    exact ⟨a, rfl, .refl a⟩

/-- Sums onto two forms of a zero overflow together, and are the same but for the form of a zero. -/
theorem SameButZero.add? (h : SameButZero a a') (b : Decimal) :
  Option.Rel SameButZero (a.add? b) (a'.add? b)
  := by
  obtain rfl | ⟨ha, ha'⟩ := h
  · cases a.add? b with
    | none => exact .none
    | some c => exact .some (.refl c)
  · rw [Decimal.add?, if_pos ha, Decimal.add?, if_pos ha']
    exact .some (.refl b)

theorem SameButZero.isPositive_eq (h : SameButZero a b) :
  a.isPositive = b.isPositive
  := by
  obtain rfl | ⟨ha, hb⟩ := h
  · rfl
  · simp [isPositive, ha, hb]

/-- A quotient does not depend on the form of a zero that is divided. -/
theorem SameButZero.div?_eq (h : SameButZero a a') (b : Decimal) :
  a.div? b = a'.div? b
  := by
  obtain rfl | ⟨ha, ha'⟩ := h
  · rfl
  · rw [div?, if_pos ha, div?, if_pos ha']

end Decimal

/-! ### The sums of a side -/

/-- Nothing is offered at the price of the level: its size is a zero, of any sign and places. -/
def Level.IsEmpty (l : Level) : Prop :=
  l.size.mantissa = 0

namespace Totals

/-- The sums are the same, up to the forms of zeros. -/
structure SameButZero (t t' : Totals) : Prop where
  notional : t.notional.SameButZero t'.notional
  size : t.size.SameButZero t'.size

variable {t t' u : Totals} {l : Level}

theorem SameButZero.refl (t : Totals) : SameButZero t t := ⟨.refl _, .refl _⟩

theorem SameButZero.symm (h : SameButZero t t') : SameButZero t' t :=
  ⟨h.notional.symm, h.size.symm⟩

theorem SameButZero.trans (h : SameButZero t t') (h' : SameButZero t' u) : SameButZero t u :=
  ⟨h.notional.trans h'.notional, h.size.trans h'.size⟩

/-- An empty level leaves the sums as they are, and does not overflow at any price. -/
theorem exists_add?_of_isEmpty (t : Totals) (h : l.IsEmpty) :
  ∃ u, t.add? l = some u ∧ SameButZero u t
  := by
  have hproduct : l.price.mul? l.size = some .zero := if_pos (Or.inr h)
  obtain ⟨notional, hn, hnt⟩ := Decimal.exists_add?_of_zero t.notional (b := .zero) rfl
  obtain ⟨size, hs, hst⟩ := Decimal.exists_add?_of_zero t.size h
  refine ⟨⟨notional, size⟩, ?_, hnt, hst⟩
  simp only [add?, hproduct, hn, hs, Option.bind_eq_bind, Option.bind_some]
  rfl

/-- A level is added to two forms of the same sums with the same effect. -/
theorem SameButZero.add? (h : SameButZero t t') (l : Level) :
  Option.Rel SameButZero (t.add? l) (t'.add? l)
  := by
  rw [Totals.add?, Totals.add?]
  cases l.price.mul? l.size with
  | none => exact .none
  | some product =>
    apply rel_bind (h.notional.add? product)
    intro n n' hn
    apply rel_bind (h.size.add? l.size)
    intro s s' hs
    exact .some ⟨hn, hs⟩

/-- The quotient of two forms of the same sums is the same. -/
theorem SameButZero.quotient_eq (h : SameButZero t t') :
  (if t.size.isPositive then t.notional.div? t.size else none) =
    if t'.size.isPositive then t'.notional.div? t'.size else none
  := by
  rw [h.size.isPositive_eq]
  split
  · rename_i hp
    rw [Decimal.isPositive, Bool.and_eq_true, bne_iff_ne] at hp
    rw [h.size.symm.eq hp.2, h.notional.div?_eq]
  · rfl

end Totals

/-! ### Sides that differ by empty levels -/

/-- The sums over two such sides overflow together, and are the same up to the forms of zeros. -/
theorem totals_of_differBy {ls ls' : List Level} (h : DifferBy Level.IsEmpty ls ls') {t t' : Totals}
    (ht : t.SameButZero t') :
  Option.Rel Totals.SameButZero (ls.foldlM Totals.add? t) (ls'.foldlM Totals.add? t')
  := by
  induction h generalizing t t' with
  | nil => exact .some ht
  | cons l _ ih =>
    rw [List.foldlM_cons, List.foldlM_cons]
    apply rel_bind (ht.add? l)
    intro u u' hu
    apply ih hu
  | inserted hl _ ih =>
    obtain ⟨u, hu, hut⟩ := t'.exists_add?_of_isEmpty hl
    rw [List.foldlM_cons, hu]
    apply ih (ht.trans hut.symm)
  | removed hl _ ih =>
    obtain ⟨u, hu, hut⟩ := t.exists_add?_of_isEmpty hl
    rw [List.foldlM_cons, hu]
    apply ih (hut.trans ht)

/-- Two sides that differ by levels of size zero alone have the same price, with the same sign and the
same places, or neither has one.  Nothing is assumed of the arithmetic: where the sums over one side
overflow or are rounded, so are those over the other. -/
theorem averagePrice?_of_differBy {ls ls' : List Level} (h : DifferBy Level.IsEmpty ls ls') :
  averagePrice? ls = averagePrice? ls'
  := by
  have hrel := totals_of_differBy h (.refl .zero)
  rw [averagePrice?, averagePrice?, Totals.of?, Totals.of?]
  generalize ls.foldlM Totals.add? .zero = t at hrel ⊢
  generalize ls'.foldlM Totals.add? .zero = t' at hrel ⊢
  cases hrel with
  | none => rfl
  | some ht => exact ht.quotient_eq

/-- Levels of size `0.00` and `-0` at the greatest price make no difference to ten for one. -/
theorem averagePrice?_amid_empty :
  let greatest : Decimal := ⟨false, Nat.pow 2 96 - 1, 0, by decide, by decide⟩
  let ten : Decimal := ⟨false, 100, 1, by decide, by decide⟩
  let one : Decimal := ⟨false, 1, 0, by decide, by decide⟩
  let places : Decimal := ⟨false, 0, 2, by decide, by decide⟩
  let minus : Decimal := ⟨true, 0, 0, by decide, by decide⟩
  DifferBy Level.IsEmpty [⟨greatest, places⟩, ⟨ten, one⟩, ⟨greatest, minus⟩] [⟨ten, one⟩] ∧
    averagePrice? [⟨greatest, places⟩, ⟨ten, one⟩, ⟨greatest, minus⟩] = some ten
  := by
  intro greatest ten one places minus
  have hplaces : Level.IsEmpty ⟨greatest, places⟩ := rfl
  have hminus : Level.IsEmpty ⟨greatest, minus⟩ := rfl
  have h : DifferBy Level.IsEmpty [⟨greatest, places⟩, ⟨ten, one⟩, ⟨greatest, minus⟩] [⟨ten, one⟩] := by
    apply DifferBy.removed hplaces
    apply DifferBy.cons
    apply DifferBy.removed hminus
    apply DifferBy.nil
  refine ⟨h, ?_⟩
  rw [averagePrice?_of_differBy h]
  have hsums : ten.mul? one = some ten ∧ Decimal.zero.add? ten = some ten ∧
      Decimal.zero.add? one = some one := by decide
  have htotals : Totals.of? [⟨ten, one⟩] = some ⟨ten, one⟩ := by
    simp [Totals.of?, Totals.add?, Totals.zero, hsums]
  rw [averagePrice?, htotals]
  change ten.div? one = some ten
  simp [Decimal.div?, Decimal.develop, Decimal.ofParts?, Decimal.mantissaBound, Decimal.maxScale, ten,
    one]

end QuoteFeed
