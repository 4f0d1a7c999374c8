import Mathlib.Algebra.BigOperators.Ring.List
import Mathlib.Algebra.Order.BigOperators.Group.List
import QuoteFeed.Proofs.Decimal.Quotient
import QuoteFeed.Quote.Average

/-!
# The price of a side

If the sums over a side lose nothing (`Totals.AddsExactly`), its price is their quotient as far as a
decimal can say it: rounded at the last place at which it fits, and never outside the prices of the
side (`averagePrice?_of_addsExactly`).
-/

namespace QuoteFeed

/-- The sum of price times size over a side, as a number. -/
def exactNotional (levels : List Level) : ℚ :=
  (levels.map fun l => l.price.value * l.size.value).sum

/-- The sum of the sizes of a side, as a number. -/
def exactSize (levels : List Level) : ℚ :=
  (levels.map fun l => l.size.value).sum

namespace Totals

/-- Levels are added one by one to the sums, and no product and no sum is rounded. -/
inductive AddsExactly : Totals → List Level → Totals → Prop where
  | nil (t : Totals) : AddsExactly t [] t
  | cons {t u v : Totals} {l : Level} {levels : List Level} {product : Decimal}
      (hp : l.price.mul? l.size = some product) (hn : t.notional.add? product = some u.notional)
      (hs : t.size.add? l.size = some u.size)
      (product_eq : product.value = l.price.value * l.size.value)
      (notional_eq : u.notional.value = t.notional.value + product.value)
      (size_eq : u.size.value = t.size.value + l.size.value)
      (h : AddsExactly u levels v) :
    AddsExactly t (l :: levels) v

variable {t t' : Totals} {levels : List Level}

/-- The sums are found. -/
theorem AddsExactly.foldlM (h : AddsExactly t levels t') :
  levels.foldlM add? t = some t'
  := by
  induction h with
  | nil => rfl
  | cons hp hn hs _ _ _ _ ih =>
    simp only [List.foldlM_cons, add?, hp, hn, hs, Option.bind_eq_bind, Option.bind_some]
    exact ih

/-- The sums are those of the numbers that the decimals stand for. -/
theorem AddsExactly.sums (h : AddsExactly t levels t') :
  t'.notional.value = t.notional.value + exactNotional levels ∧
    t'.size.value = t.size.value + exactSize levels
  := by
  induction h with
  | nil => simp [exactNotional, exactSize]
  | cons _ _ _ hp hn hs _ ih =>
    rw [exactNotional, List.map_cons, List.sum_cons, exactSize, List.map_cons, List.sum_cons,
      ih.1, ih.2, hn, hs, hp, add_assoc, add_assoc]
    exact ⟨rfl, rfl⟩

end Totals

/-! ### Weighted means -/

section Mean

variable {α : Type} {as : List α} {w f : α → ℚ}

/-- A mean is not below all numbers of positive weight. -/
theorem exists_le_mean (hw : ∀ a ∈ as, 0 ≤ w a) (hpos : 0 < (as.map w).sum) :
  ∃ a ∈ as, 0 < w a ∧ f a ≤ (as.map fun a => f a * w a).sum / (as.map w).sum
  := by
  let mean := (as.map fun a => f a * w a).sum / (as.map w).sum
  have hmean : (as.map fun a => mean * w a).sum = (as.map fun a => f a * w a).sum := by
    rw [List.sum_map_mul_left, div_mul_cancel₀ _ hpos.ne']
  by_contra hall
  push Not at hall
  have hlt : ∃ a ∈ as, mean * w a < f a * w a := by
    obtain ⟨a, ha, hwa⟩ := List.exists_lt_of_sum_lt (fun _ => 0) w (by simpa using hpos)
    exact ⟨a, ha, mul_lt_mul_of_pos_right (hall a ha hwa) hwa⟩
  have hle : ∀ a ∈ as, mean * w a ≤ f a * w a := by
    intro a ha
    obtain hwa | hwa := lt_or_eq_of_le (hw a ha)
    · exact mul_le_mul_of_nonneg_right (hall a ha hwa).le hwa.le
    · rw [← hwa, mul_zero, mul_zero]
  exact (List.sum_lt_sum _ _ hle hlt).ne hmean

/-- A mean is not above all numbers of positive weight. -/
theorem exists_mean_le (hw : ∀ a ∈ as, 0 ≤ w a) (hpos : 0 < (as.map w).sum) :
  ∃ a ∈ as, 0 < w a ∧ (as.map fun a => f a * w a).sum / (as.map w).sum ≤ f a
  := by
  obtain ⟨a, ha, hwa, h⟩ := exists_le_mean (f := fun a => -f a) hw hpos
  have hneg : (as.map fun a => -f a * w a).sum = -(as.map fun a => f a * w a).sum := by
    simp only [neg_mul]
    rw [← neg_one_mul, ← List.sum_map_mul_left]
    simp only [neg_one_mul]
  rw [hneg, neg_div] at h
  exact ⟨a, ha, hwa, neg_le_neg_iff.1 h⟩

end Mean

/-! ### Prices -/

open Decimal (Fits maxScale)

section Exact

variable {levels : List Level} {t : Totals} (h : Totals.AddsExactly .zero levels t)
include h

theorem averagePrice?_eq :
  averagePrice? levels = if t.size.isPositive then t.notional.div? t.size else none
  := by
  have ht : Totals.of? levels = some t := h.foldlM
  rw [averagePrice?, ht]
  rfl

theorem totals_value :
  t.notional.value = exactNotional levels ∧ t.size.value = exactSize levels
  := by
  obtain ⟨hnotional, hsize⟩ := h.sums
  have hzero : Decimal.zero.value = 0 := by simp [Decimal.value, Decimal.zero]
  change t.notional.value = Decimal.zero.value + exactNotional levels at hnotional
  change t.size.value = Decimal.zero.value + exactSize levels at hsize
  rw [hzero, zero_add] at hnotional hsize
  exact ⟨hnotional, hsize⟩

theorem averagePrice?_eq_none (hle : exactSize levels ≤ 0) :
  averagePrice? levels = none
  := by
  rw [averagePrice?_eq h, if_neg]
  rw [Decimal.isPositive_iff, (totals_value h).2]
  apply not_lt.2 hle

/-- The price of a side with some size says what a decimal can say of the quotient of the sums. -/
theorem approximates_averagePrice? (hpos : 0 < exactSize levels) :
  Decimal.Approximates (exactNotional levels / exactSize levels) (averagePrice? levels)
  := by
  obtain ⟨hnotional, hsize⟩ := totals_value h
  have hp : t.size.isPositive = true := by
    rw [Decimal.isPositive_iff, hsize]
    apply hpos
  have hmantissa : t.size.mantissa ≠ 0 := by
    rw [Decimal.isPositive, Bool.and_eq_true, bne_iff_ne] at hp
    exact hp.2
  rw [averagePrice?_eq h, if_pos hp, ← hnotional, ← hsize]
  apply Decimal.approximates_div? _ hmantissa

/-- The price of a side is between two prices of its levels. -/
theorem exists_averagePrice?_between (hw : ∀ l ∈ levels, 0 ≤ l.size.value)
    (hpos : 0 < exactSize levels) :
  ∃ p, averagePrice? levels = some p ∧
    (∃ l ∈ levels, 0 < l.size.value ∧ l.price.value ≤ p.value) ∧
    ∃ l ∈ levels, 0 < l.size.value ∧ p.value ≤ l.price.value
  := by
  have happ := approximates_averagePrice? h hpos
  obtain ⟨l, hl, hs, hle⟩ := exists_le_mean (f := fun l : Level => l.price.value) hw hpos
  obtain ⟨u, hu, hs', hge⟩ := exists_mean_le (f := fun l : Level => l.price.value) hw hpos
  obtain ⟨p, hp⟩ : ∃ p, averagePrice? levels = some p := by
    rw [← Option.ne_none_iff_exists']
    intro hnone
    apply happ.eq_none_iff.1 hnone 0 (Nat.zero_le _)
    apply Decimal.fits_of_between hle hge
  rw [hp] at happ
  refine ⟨p, hp, ⟨l, hl, hs, ?_⟩, u, hu, hs', ?_⟩
  · apply (happ.between l.price).2 hle
  · apply (happ.between u.price).1 hge

end Exact

/-- The price of a side whose sums lose nothing.  It is absent if the side has no size or if the
quotient of the sums, rounded, fits at no number of places.  Otherwise it is the quotient, or at
most half a unit from it at the last place at which the quotient fits.  If no size is negative and
the side has some size, there is a price, and it is between two prices of levels with some size. -/
theorem averagePrice?_of_addsExactly {levels : List Level} {t : Totals}
    (h : Totals.AddsExactly .zero levels t) :
  let mean := exactNotional levels / exactSize levels
  (averagePrice? levels = none ↔ exactSize levels ≤ 0 ∨ ∀ k ≤ maxScale, ¬ Fits k mean) ∧
    (∀ p, averagePrice? levels = some p →
      ∃ k, IsGreatest {k | k ≤ maxScale ∧ Fits k mean} k ∧
        (p.value = mean ∨ |p.value - mean| ≤ 1 / 2 / 10 ^ k)) ∧
    ((∀ l ∈ levels, 0 ≤ l.size.value) → 0 < exactSize levels →
      ∃ p, averagePrice? levels = some p ∧
        (∃ l ∈ levels, 0 < l.size.value ∧ l.price.value ≤ p.value) ∧
        ∃ l ∈ levels, 0 < l.size.value ∧ p.value ≤ l.price.value)
  := by
  intro mean
  refine ⟨?_, ?_, exists_averagePrice?_between h⟩
  · obtain hle | hpos := le_or_gt (exactSize levels) 0
    · exact ⟨fun _ => Or.inl hle, fun _ => averagePrice?_eq_none h hle⟩
    · rw [(approximates_averagePrice? h hpos).eq_none_iff, or_iff_right (not_le.2 hpos)]
  · intro p hp
    have hpos : 0 < exactSize levels := by
      by_contra hle
      rw [averagePrice?_eq_none h (not_lt.1 hle)] at hp
      contradiction
    have happ := approximates_averagePrice? h hpos
    rw [hp] at happ
    apply happ.near

/-- Ten for one and eleven for two make a price between the two, though `32 / 3` is no decimal. -/
theorem averagePrice?_thirds :
  let one : Decimal := ⟨false, 1, 0, Nat.le_of_ble_eq_true rfl, Nat.le_of_ble_eq_true rfl⟩
  let two : Decimal := ⟨false, 2, 0, Nat.le_of_ble_eq_true rfl, Nat.le_of_ble_eq_true rfl⟩
  let ten : Decimal := ⟨false, 100, 1, Nat.le_of_ble_eq_true rfl, Nat.le_of_ble_eq_true rfl⟩
  let eleven : Decimal := ⟨false, 11, 0, Nat.le_of_ble_eq_true rfl, Nat.le_of_ble_eq_true rfl⟩
  ∃ p, averagePrice? [⟨ten, one⟩, ⟨eleven, two⟩] = some p ∧ 10 ≤ p.value ∧ p.value ≤ 11
  := by
  intro one two ten eleven
  let three : Decimal := ⟨false, 3, 0, Nat.le_of_ble_eq_true rfl, Nat.le_of_ble_eq_true rfl⟩
  let product : Decimal := ⟨false, 22, 0, Nat.le_of_ble_eq_true rfl, Nat.le_of_ble_eq_true rfl⟩
  let notional : Decimal := ⟨false, 320, 1, Nat.le_of_ble_eq_true rfl, Nat.le_of_ble_eq_true rfl⟩
  have hfirst : ten.mul? one = some ten ∧ Decimal.zero.add? ten = some ten ∧
      Decimal.zero.add? one = some one := by decide
  have hsecond : eleven.mul? two = some product ∧ ten.add? product = some notional ∧
      one.add? two = some three := by decide
  have h : Totals.AddsExactly .zero [⟨ten, one⟩, ⟨eleven, two⟩] ⟨notional, three⟩ := by
    apply Totals.AddsExactly.cons (u := ⟨ten, one⟩) hfirst.1 hfirst.2.1 hfirst.2.2
    · norm_num [Decimal.value, ten, one]
    · norm_num [Decimal.value, ten, one, Totals.zero, Decimal.zero]
    · norm_num [Decimal.value, ten, one, Totals.zero, Decimal.zero]
    apply Totals.AddsExactly.cons (u := ⟨notional, three⟩) hsecond.1 hsecond.2.1 hsecond.2.2
    · norm_num [Decimal.value, eleven, two, product]
    · norm_num [Decimal.value, ten, product, notional]
    · norm_num [Decimal.value, one, two, three]
    apply Totals.AddsExactly.nil
  have hpositive : 0 < one.value ∧ 0 < two.value := by
    norm_num [Decimal.value, one, two]
  have hprices : ten.value = 10 ∧ eleven.value = 11 := by
    norm_num [Decimal.value, ten, eleven]
  obtain ⟨p, hp, ⟨l, hl, hlp, hle⟩, l', hl', hlp', hle'⟩ := (averagePrice?_of_addsExactly h).2.2
    (by simp [hpositive.1.le, hpositive.2.le]) (by simpa [exactSize] using add_pos hpositive.1 hpositive.2)
  refine ⟨p, hp, le_trans ?_ hle, le_trans hle' ?_⟩
  · obtain rfl | rfl : l = ⟨ten, one⟩ ∨ l = ⟨eleven, two⟩ := by simpa using hl
    · exact hprices.1.ge
    · rw [hprices.2]
      norm_num
  · obtain rfl | rfl : l' = ⟨ten, one⟩ ∨ l' = ⟨eleven, two⟩ := by simpa using hl'
    · rw [hprices.1]
      norm_num
    · exact hprices.2.le

end QuoteFeed
