import Mathlib.Data.Nat.Cast.Order.Field
import QuoteFeed.Decimal.Arithmetic
import QuoteFeed.Proofs.Decimal.Rounding

/-!
# The product by a power of ten

A product that has more digits than a mantissa loses its last places, and is rounded.  The digits
that a product by a power of ten can lose are zeros, so it is not rounded: it is the exact number
with its sign, or nothing if that number is beyond every mantissa (`exactly_mul?`).  Rounding up to
a whole number afterwards gives the ceiling of that number (`ceil_value`).
-/

namespace QuoteFeed.Decimal

/-- A number that was not rounded: its decimal, whose sign flag is that of the number, or nothing if
its magnitude has no mantissa. -/
inductive Exactly (x : ℚ) : Option Decimal → Prop where
  | overflow (h : (mantissaBound : ℚ) ≤ |x|) : Exactly x none
  | exact {d : Decimal} (h : d.value = x) (hs : d.negative = true ↔ x < 0) : Exactly x (some d)

/-! ### Digits that are zeros -/

/-- A multiple is divided without rounding. -/
theorem halfEven_mul (q : ℕ) {d : ℕ} (hd : 0 < d) :
  halfEven (q * d) d = q
  := by
  rw [halfEven, Nat.mul_div_cancel q hd, Nat.mul_mod_left, if_neg]
  omega

/-- The number of places that are lost is the least after which the rest is a mantissa. -/
theorem excess_eq_some_iff {least n k : ℕ} :
  excess least n = some k ↔
    n / 10 ^ k < mantissaBound ∧ (least ≤ k ∧ k < least + 64) ∧
      ∀ j, least ≤ j → j < k → mantissaBound ≤ n / 10 ^ j
  := by
  simp [excess, List.find?_range'_eq_some, List.mem_range'_1]

/-- No more places are lost than are enough. -/
theorem exists_excess {n p : ℕ} (hp : p < 64) (h : n / 10 ^ p < mantissaBound) :
  ∃ k ≤ p, excess 0 n = some k
  := by
  have hex : ∃ k, n / 10 ^ k < mantissaBound := ⟨p, h⟩
  have hle : Nat.find hex ≤ p := Nat.find_min' hex h
  refine ⟨Nat.find hex, hle, excess_eq_some_iff.2 ⟨Nat.find_spec hex, by omega, ?_⟩⟩
  intro j _ hj
  exact Nat.le_of_not_lt (Nat.find_min hex hj)

/-- A mantissa with zeros behind it loses only zeros. -/
theorem exactly_fit? (negative : Bool) {m p scale : ℕ} (h0 : m ≠ 0) (hm : m < mantissaBound)
    (hp : p < 64) (hs : scale ≤ maxScale) :
  Exactly ((if negative then -1 else 1) * ((m * 10 ^ p : ℕ) / 10 ^ scale))
    (fit? negative (m * 10 ^ p) scale)
  := by
  have hten : 0 < 10 ^ p := by positivity
  obtain ⟨k, hk, he⟩ := exists_excess (n := m * 10 ^ p) hp (by rwa [Nat.mul_div_cancel _ hten])
  obtain ⟨hlt, -, hlast⟩ := excess_eq_some_iff.1 he
  have hdvd : 10 ^ k ∣ m * 10 ^ p := Dvd.dvd.mul_left (pow_dvd_pow 10 hk) m
  have hpos : 0 < m * 10 ^ p := Nat.mul_pos (Nat.pos_of_ne_zero h0) hten
  generalize m * 10 ^ p = n at *
  have hn : (0 : ℚ) < n / 10 ^ scale := by
    have : (0 : ℚ) < n := by exact_mod_cast hpos
    positivity
  rw [fit?, Nat.sub_eq_zero_of_le hs, he, Option.bind_eq_bind, Option.bind_some]
  by_cases hplaces : k > scale
  · rw [if_pos hplaces]
    apply Exactly.overflow
    have habs : |(if negative then (-1 : ℚ) else 1) * (n / 10 ^ scale)| = n / 10 ^ scale := by
      rw [abs_mul, abs_of_pos hn]
      cases negative <;> simp
    have hdiv : ((n / 10 ^ scale : ℕ) : ℚ) ≤ n / (10 ^ scale : ℕ) := Nat.cast_div_le
    rw [Nat.cast_pow, Nat.cast_ofNat] at hdiv
    rw [habs]
    apply le_trans _ hdiv
    exact_mod_cast hlast scale (Nat.zero_le _) hplaces
  · obtain ⟨q, rfl⟩ := hdvd
    have hpow : 0 < 10 ^ k := by positivity
    have hle : k ≤ scale := Nat.le_of_not_lt hplaces
    rw [Nat.mul_div_cancel_left _ hpow] at hlt
    have hq : (q : ℚ) / 10 ^ (scale - k) = (10 ^ k * q : ℕ) / 10 ^ scale := by
      rw [scaled_eq q (Nat.sub_le scale k), Nat.sub_sub_self hle, Nat.mul_comm]
    have hhalf : halfEven (10 ^ k * q) (10 ^ k) = q := by
      rw [Nat.mul_comm, halfEven_mul q hpow]
    rw [if_neg hplaces]
    dsimp only [Nat.pow_eq]
    rw [hhalf, if_pos hlt, ofParts?, dif_pos ⟨hlt, (Nat.sub_le _ _).trans hs⟩]
    apply Exactly.exact
    · rw [value, hq]
    · cases negative with
      | false => simpa using hn.le
      | true => simpa using hn

/-! ### Products -/

/-- The power of ten that a decimal is. -/
theorem ofWhole?_eq_some {p : ℕ} {factor : Decimal} (h : ofWhole? false (10 ^ p) = some factor) :
  p < 64 ∧ factor.negative = false ∧ factor.mantissa = 10 ^ p ∧ factor.scale = 0
  := by
  rw [ofWhole?, ofParts?] at h
  split at h
  case isFalse => contradiction
  case isTrue hfits =>
    obtain rfl := Option.some.inj h
    refine ⟨?_, rfl, rfl, rfl⟩
    by_contra hp
    have hpow : 10 ^ 64 ≤ 10 ^ p := Nat.pow_le_pow_right (by decide) (Nat.le_of_not_lt hp)
    have hbound : mantissaBound < 10 ^ 64 := by decide
    exact absurd hfits.1 (Nat.not_lt.2 (hbound.le.trans hpow))

/-- A product by a power of ten is not rounded. -/
theorem exactly_mul? (a : Decimal) {p : ℕ} {factor : Decimal}
    (h : ofWhole? false (10 ^ p) = some factor) :
  Exactly (a.value * 10 ^ p) (a.mul? factor)
  := by
  obtain ⟨hp, hnegative, hmantissa, hscale⟩ := ofWhole?_eq_some h
  have hne : factor.mantissa ≠ 0 := by
    rw [hmantissa]
    positivity
  rw [mul?]
  by_cases h0 : a.mantissa = 0
  · have hvalue : a.value * 10 ^ p = 0 := by
      rw [value, h0]
      simp
    rw [if_pos (Or.inl h0), hvalue]
    apply Exactly.exact
    · simp [value, zero]
    · simp [zero]
  · have hplaces : ¬ a.scale + factor.scale > 47 := by
      have := a.scale_le
      have : maxScale = 28 := rfl
      omega
    have hvalue : a.value * 10 ^ p =
        (if a.negative then -1 else 1) * ((a.mantissa * 10 ^ p : ℕ) / 10 ^ a.scale) := by
      rw [value]
      push_cast
      ring
    rw [if_neg (by tauto), if_neg (by tauto), hnegative, hmantissa, hscale, Bool.bne_false,
      hvalue]
    apply exactly_fit? a.negative h0 a.mantissa_lt hp a.scale_le

/-! ### Whole numbers -/

@[simp]
theorem ceil_fst (d : Decimal) :
  d.ceil.1 = d.negative
  := rfl

/-- The least whole number that is not less. -/
theorem ceil_value (d : Decimal) :
  ⌈d.value⌉ = if d.negative then -(d.ceil.2 : ℤ) else d.ceil.2
  := by
  have hpow : ((10 : ℚ) ^ d.scale) = (10 ^ d.scale : ℕ) := by norm_num
  rw [value, hpow, ceil]
  cases hd : d.negative with
  | true =>
    rw [if_pos rfl, if_pos rfl, neg_one_mul, Int.ceil_neg, Rat.floor_natCast_div_natCast]
    simp
  | false =>
    have hsign : ((10 ^ d.scale : ℕ) : ℤ).sign = 1 := Int.sign_eq_one_of_pos (by positivity)
    rw [if_neg Bool.false_ne_true, if_neg Bool.false_ne_true, one_mul,
      Rat.ceil_natCast_div_natCast, Int.neg_ediv, hsign]
    by_cases hr : d.mantissa % 10 ^ d.scale = 0
    · rw [if_pos (by exact_mod_cast Nat.dvd_of_mod_eq_zero hr)]
      simp [hr]
    · rw [if_neg (by exact_mod_cast mt Nat.mod_eq_zero_of_dvd hr)]
      simp [hr, add_comm]

end QuoteFeed.Decimal
