import Mathlib.Data.Nat.SuccPred
import Mathlib.Data.Rat.Floor
import Mathlib.Order.SuccPred.Archimedean
import Mathlib.Tactic.Linarith
import Mathlib.Tactic.NormNum
import Mathlib.Tactic.Positivity
import Mathlib.Tactic.Ring
import QuoteFeed.Decimal.Basic

/-!
# Values and rounding

The value of a decimal is a rational number.  A number is rounded to the nearest whole number, and
to the even one of two that are equally near (`RoundsTo`); at `k` places it fits a decimal if the
number of its units there, so rounded, is a mantissa (`Fits`).  The mantissa bound is even, so a
number fits exactly as long as it is more than half a unit below the bound (`fits_iff`).

A number that is no decimal is rounded at the last place at which it fits (`Approximates`).  There
are decimals with more places, but none that rounding could pass (`Approximates.between`): in
magnitude they are all below the number and below what it is rounded to.
-/

namespace QuoteFeed.Decimal

/-! ### Values -/

/-- The number that a decimal stands for. -/
def value (d : Decimal) : ℚ :=
  (if d.negative then -1 else 1) * (d.mantissa / 10 ^ d.scale)

theorem abs_value (d : Decimal) :
  |d.value| = d.mantissa / 10 ^ d.scale
  := by
  have hm : (0 : ℚ) ≤ d.mantissa / 10 ^ d.scale := by positivity
  rw [value]
  split
  · rw [neg_one_mul, abs_neg, abs_of_nonneg hm]
  · rw [one_mul, abs_of_nonneg hm]

theorem isPositive_iff (d : Decimal) :
  d.isPositive = true ↔ 0 < d.value
  := by
  have hm : (0 : ℚ) ≤ d.mantissa / 10 ^ d.scale := by positivity
  rw [isPositive, value]
  cases hn : d.negative with
  | true =>
    rw [if_pos rfl, neg_one_mul, neg_pos]
    simpa using hm
  | false =>
    have hpow : (0 : ℚ) < 10 ^ d.scale := by positivity
    rw [if_neg Bool.false_ne_true, one_mul, div_pos_iff_of_pos_right hpow, Nat.cast_pos,
      Nat.pos_iff_ne_zero]
    simp

/-- The same number with more places. -/
theorem scaled_eq (m : ℕ) {s k : ℕ} (h : s ≤ k) :
  (m : ℚ) / 10 ^ s = (m * 10 ^ (k - s) : ℕ) / 10 ^ k
  := by
  rw [div_eq_div_iff (by positivity) (by positivity)]
  push_cast
  rw [mul_assoc, ← pow_add, Nat.sub_add_cancel h]

/-! ### Rounding -/

/-- The nearest whole number, and the even one of two that are equally near. -/
structure RoundsTo (x : ℚ) (n : ℕ) : Prop where
  near : |x - n| ≤ 1 / 2
  even : |x - n| = 1 / 2 → Even n

variable {x : ℚ} {n m : ℕ}

/-- Rounding passes no whole number. -/
theorem RoundsTo.le (h : RoundsTo x n) (hm : x ≤ m) :
  n ≤ m
  := by
  by_contra hlt
  have hlt : (m : ℚ) + 1 ≤ n := by exact_mod_cast Nat.lt_of_not_le hlt
  have hnear := (abs_le.1 h.near).1
  linarith

theorem RoundsTo.ge (h : RoundsTo x n) (hm : m ≤ x) :
  m ≤ n
  := by
  by_contra hlt
  have hlt : (n : ℚ) + 1 ≤ m := by exact_mod_cast Nat.lt_of_not_le hlt
  have hnear := (abs_le.1 h.near).2
  linarith

/-- Of two neighbours at half a unit, only one is even. -/
theorem RoundsTo.le_of_roundsTo (hn : RoundsTo x n) (hm : RoundsTo x m) :
  n ≤ m
  := by
  by_contra hlt
  have hle : (m : ℚ) + 1 ≤ n := by exact_mod_cast Nat.lt_of_not_le hlt
  have hnear := abs_le.1 hn.near
  have hnear' := abs_le.1 hm.near
  have hsucc : n = m + 1 := by
    have : (n : ℚ) = (m + 1 : ℕ) := by
      push_cast
      linarith
    exact_mod_cast this
  have hx : x - m = 1 / 2 := by linarith
  have hx' : x - n = -(1 / 2) := by linarith
  have he := hm.even (by rw [hx, abs_of_pos (by norm_num)])
  have he' := hn.even (by rw [hx', abs_neg, abs_of_pos (by norm_num)])
  rw [hsucc] at he'
  exact Nat.even_add_one.1 he' he

theorem roundsTo_of_lt {f : ℚ} (h0 : 0 ≤ f) (h : f < 1 / 2 ∨ f = 1 / 2 ∧ Even n) :
  RoundsTo (n + f) n
  := by
  have habs : |(n : ℚ) + f - n| = f := by rw [add_sub_cancel_left, abs_of_nonneg h0]
  obtain h | ⟨h, he⟩ := h
  · exact ⟨by linarith, fun hf => absurd hf (by linarith)⟩
  · exact ⟨by linarith, fun _ => he⟩

theorem roundsTo_of_gt {f : ℚ} (h1 : f ≤ 1) (h : 1 / 2 < f ∨ f = 1 / 2 ∧ ¬ Even n) :
  RoundsTo (n + f) (n + 1)
  := by
  have habs : |(n : ℚ) + f - (n + 1 : ℕ)| = 1 - f := by
    rw [abs_sub_comm, abs_of_nonneg (by push_cast; linarith)]
    push_cast
    ring
  obtain h | ⟨h, he⟩ := h
  · exact ⟨by linarith, fun hf => absurd hf (by linarith)⟩
  · exact ⟨by linarith, fun _ => Nat.even_add_one.2 he⟩

/-- Every number that is not negative is rounded to one whole number. -/
theorem existsUnique_roundsTo (hx : 0 ≤ x) :
  ∃! n, RoundsTo x n
  := by
  have hfloor : 0 ≤ x - ⌊x⌋₊ := sub_nonneg.2 (Nat.floor_le hx)
  have hceil : x - ⌊x⌋₊ < 1 := by linarith [Nat.lt_floor_add_one x]
  have hsum : (⌊x⌋₊ : ℚ) + (x - ⌊x⌋₊) = x := add_sub_cancel _ _
  apply existsUnique_of_exists_of_unique
  · by_cases h : x - ⌊x⌋₊ < 1 / 2 ∨ x - ⌊x⌋₊ = 1 / 2 ∧ Even ⌊x⌋₊
    · use ⌊x⌋₊
      simpa only [hsum] using roundsTo_of_lt hfloor h
    · use ⌊x⌋₊ + 1
      have h : 1 / 2 < x - ⌊x⌋₊ ∨ x - ⌊x⌋₊ = 1 / 2 ∧ ¬ Even ⌊x⌋₊ := by grind
      simpa only [hsum] using roundsTo_of_gt hceil.le h
  · intro n m hn hm
    exact le_antisymm (hn.le_of_roundsTo hm) (hm.le_of_roundsTo hn)

/-- At `k` places, the number of units of `x` is rounded to a mantissa. -/
def Fits (k : ℕ) (x : ℚ) : Prop :=
  ∃ n < mantissaBound, RoundsTo (|x| * 10 ^ k) n

theorem fits_iff {k : ℕ} :
  Fits k x ↔ |x| * 10 ^ k < mantissaBound - 1 / 2
  := by
  constructor
  · intro h
    obtain ⟨n, hn, h⟩ := h
    have hle : (n : ℚ) + 1 ≤ mantissaBound := by exact_mod_cast hn
    obtain hlt | heq := lt_or_eq_of_le (abs_le.1 h.near).2
    · linarith
    · have he := h.even (by rw [heq, abs_of_pos (by norm_num)])
      have hne : n + 1 ≠ mantissaBound := by
        intro hm
        have hodd : Even (n + 1) := by
          rw [hm]
          decide
        apply Nat.even_add_one.1 hodd he
      have hlt : (n : ℚ) + 1 + 1 ≤ mantissaBound := by exact_mod_cast lt_of_le_of_ne hn hne
      linarith
  · intro h
    obtain ⟨n, hn, -⟩ := existsUnique_roundsTo (x := |x| * 10 ^ k) (by positivity)
    use n
    have hlt : (n : ℚ) < mantissaBound := by linarith [(abs_le.1 hn.near).1]
    exact ⟨by exact_mod_cast hlt, hn⟩

theorem fits_abs {k : ℕ} :
  Fits k |x| ↔ Fits k x
  := by
  rw [Fits, Fits, abs_abs]

/-- With fewer places there is more room. -/
theorem Fits.mono {j k : ℕ} (h : Fits k x) (hj : j ≤ k) :
  Fits j x
  := by
  have hpow : (10 : ℚ) ^ j ≤ 10 ^ k := pow_le_pow_right₀ (by norm_num) hj
  have hle : |x| * 10 ^ j ≤ |x| * 10 ^ k := mul_le_mul_of_nonneg_left hpow (abs_nonneg x)
  rw [fits_iff] at h ⊢
  linarith

/-- What a decimal can say of `x`: nothing if `x` does not fit without places, all of it, or `x`
rounded at the last place at which it fits. -/
inductive Approximates (x : ℚ) : Option Decimal → Prop where
  | overflow (h : ¬ Fits 0 x) : Approximates x none
  | exact {p : Decimal} (h : p.value = x) : Approximates x (some p)
  | rounded {p : Decimal} {k n : ℕ} (hk : IsGreatest {k | k ≤ maxScale ∧ Fits k x} k)
      (hn : RoundsTo (|x| * 10 ^ k) n) (hp : |p.value| = n / 10 ^ k) (hs : 0 ≤ x * p.value) :
    Approximates x (some p)

/-! ### Approximations -/

theorem fits_value (p : Decimal) :
  Fits p.scale p.value
  := by
  have h : |p.value| * 10 ^ p.scale = p.mantissa := by
    rw [abs_value, div_mul_cancel₀ _ (by positivity)]
  have hle : (p.mantissa : ℚ) + 1 ≤ mantissaBound := by exact_mod_cast p.mantissa_lt
  rw [fits_iff, h]
  linarith

/-- Nothing is said of a number only if it fits nowhere. -/
theorem Approximates.eq_none_iff {r : Option Decimal} (h : Approximates x r) :
  r = none ↔ ∀ k ≤ maxScale, ¬ Fits k x
  := by
  cases h with
  | overflow h => exact ⟨fun _ k _ hk => h (hk.mono (Nat.zero_le k)), fun _ => rfl⟩
  | @exact p h =>
    subst h
    exact ⟨fun h => by contradiction, fun h => absurd p.fits_value (h _ p.scale_le)⟩
  | @rounded p k n hk hn hp hs =>
    exact ⟨fun h => by contradiction, fun h => absurd hk.1.2 (h _ hk.1.1)⟩

/-- Numbers of one sign are as far apart as their magnitudes. -/
theorem abs_sub_of_mul_nonneg {x z : ℚ} (h : 0 ≤ x * z) :
  |z - x| = |(|z| - |x|)|
  := by
  have hmul : |z| * |x| = z * x := by
    rw [← abs_mul, mul_comm, abs_of_nonneg h]
  rw [← sq_eq_sq_iff_abs_eq_abs]
  calc
    (z - x) ^ 2 = z ^ 2 + x ^ 2 - 2 * (z * x) := by ring
    _ = |z| ^ 2 + |x| ^ 2 - 2 * (|z| * |x|) := by rw [sq_abs, sq_abs, hmul]
    _ = (|z| - |x|) ^ 2 := by ring

/-- What is said of a number is the number, or at most half a unit from it at the last place at
which the number fits. -/
theorem Approximates.near {p : Decimal} (h : Approximates x (some p)) :
  ∃ k, IsGreatest {k | k ≤ maxScale ∧ Fits k x} k ∧
    (p.value = x ∨ |p.value - x| ≤ 1 / 2 / 10 ^ k)
  := by
  cases h with
  | exact h =>
    subst h
    have hb : BddAbove {k | k ≤ maxScale ∧ Fits k p.value} := ⟨maxScale, fun _ hk => hk.1⟩
    obtain ⟨k, hk⟩ := hb.exists_isGreatest_of_nonempty ⟨p.scale, p.scale_le, p.fits_value⟩
    exact ⟨k, hk, Or.inl rfl⟩
  | @rounded _ k n hk hn hp hs =>
    have hpow : (0 : ℚ) < 10 ^ k := by positivity
    have hsub : |x| - n / 10 ^ k = (|x| * 10 ^ k - n) / 10 ^ k := by
      rw [sub_div, mul_div_cancel_right₀ _ hpow.ne']
    refine ⟨k, hk, Or.inr ?_⟩
    rw [abs_sub_of_mul_nonneg hs, hp, abs_sub_comm, hsub, abs_div, abs_of_pos hpow]
    apply div_le_div_of_nonneg_right hn.near hpow.le

section Last

variable {k s : ℕ} (hk : IsGreatest {k | k ≤ maxScale ∧ Fits k x} k)
include hk

/-- A number reaches the bound at the place after the last at which it fits. -/
theorem bound_le_of_isGreatest (hs : k < s) (hmax : s ≤ maxScale) :
  (mantissaBound : ℚ) - 1 / 2 ≤ |x| * 10 ^ (k + 1)
  := by
  rw [← not_lt, ← fits_iff]
  intro hf
  exact Nat.not_succ_le_self k (hk.2 ⟨hs.trans_le hmax, hf⟩)

variable (hn : RoundsTo (|x| * 10 ^ k) n) (hm : m < mantissaBound) (hs : s ≤ maxScale)
include hn hm hs

/-- Rounding at the last place at which a number fits goes past no decimal above. -/
theorem div_le_of_isGreatest (h : |x| ≤ m / 10 ^ s) :
  (n : ℚ) / 10 ^ k ≤ m / 10 ^ s
  := by
  have hm : (m : ℚ) + 1 ≤ mantissaBound := by exact_mod_cast hm
  obtain hle | hlt := le_or_gt s k
  · rw [scaled_eq m hle] at h ⊢
    rw [le_div_iff₀ (by positivity)] at h
    apply div_le_div_of_nonneg_right _ (by positivity)
    exact_mod_cast hn.le h
  · exfalso
    have hbound := bound_le_of_isGreatest hk hlt hs
    have hpow : (10 : ℚ) ^ (k + 1) ≤ 10 ^ s := pow_le_pow_right₀ (by norm_num) hlt
    have hle : |x| * 10 ^ (k + 1) ≤ |x| * 10 ^ s := mul_le_mul_of_nonneg_left hpow (abs_nonneg x)
    rw [le_div_iff₀ (by positivity)] at h
    linarith

/-- Rounding at the last place at which a number fits goes past no decimal below. -/
theorem le_div_of_isGreatest (h : m / 10 ^ s ≤ |x|) :
  (m : ℚ) / 10 ^ s ≤ n / 10 ^ k
  := by
  obtain hle | hlt := le_or_gt s k
  · rw [scaled_eq m hle] at h ⊢
    rw [div_le_iff₀ (by positivity)] at h
    apply div_le_div_of_nonneg_right _ (by positivity)
    exact_mod_cast hn.ge h
  -- The digits at `k` places are so many that ten times as many pass every mantissa.
  · have hbound := bound_le_of_isGreatest hk hlt hs
    rw [pow_succ, ← mul_assoc] at hbound
    have hten : m ≤ n * 10 := by
      have hnear := (abs_le.1 hn.near).2
      have hlow : ((2 * mantissaBound : ℕ) : ℚ) ≤ (n * 20 + 11 : ℕ) := by
        push_cast
        linarith
      have hlow : 2 * mantissaBound ≤ n * 20 + 11 := by exact_mod_cast hlow
      have hb : mantissaBound = 79228162514264337593543950336 := rfl
      omega
    have hpow : (10 : ℚ) ^ (k + 1) ≤ 10 ^ s := pow_le_pow_right₀ (by norm_num) hlt
    calc
      (m : ℚ) / 10 ^ s ≤ m / 10 ^ (k + 1) :=
        div_le_div_of_nonneg_left (by positivity) (by positivity) hpow
      _ ≤ (n * 10 : ℕ) / 10 ^ (k + 1) :=
        div_le_div_of_nonneg_right (by exact_mod_cast hten) (by positivity)
      _ = n / 10 ^ k := by
        rw [pow_succ]
        push_cast
        apply mul_div_mul_right _ _ (by norm_num)

end Last

/-- A number that keeps the sign of `x`, and is on the same side of the magnitude of `c`, is on the
same side of `c`. -/
theorem le_of_abs {x z c : ℚ} (hs : 0 ≤ x * z) (hl : |x| ≤ |c| → |z| ≤ |c|)
    (hg : |c| ≤ |x| → |c| ≤ |z|) (h : x ≤ c) :
  z ≤ c
  := by
  obtain hx | hx := le_or_gt 0 x
  · have hc := hx.trans h
    rw [abs_of_nonneg hx, abs_of_nonneg hc] at hl
    exact (le_abs_self z).trans (hl h)
  · have hz : z ≤ 0 := by
      by_contra hz
      exact absurd hs (not_le.2 (mul_neg_of_neg_of_pos hx (not_le.1 hz)))
    obtain hc | hc := le_or_gt 0 c
    · exact hz.trans hc
    · rw [abs_of_neg hx, abs_of_neg hc, abs_of_nonpos hz] at hg
      exact neg_le_neg_iff.1 (hg (neg_le_neg h))

/-- What is said of a number passes no decimal that the number does not pass. -/
theorem Approximates.between {p : Decimal} (h : Approximates x (some p)) (c : Decimal) :
  (x ≤ c.value → p.value ≤ c.value) ∧ (c.value ≤ x → c.value ≤ p.value)
  := by
  cases h with
  | exact h =>
    subst h
    exact ⟨id, id⟩
  | @rounded _ k n hk hn hp hs =>
    have hl : |x| ≤ |c.value| → |p.value| ≤ |c.value| := by
      rw [hp, abs_value]
      apply div_le_of_isGreatest hk hn c.mantissa_lt c.scale_le
    have hg : |c.value| ≤ |x| → |c.value| ≤ |p.value| := by
      rw [hp, abs_value]
      apply le_div_of_isGreatest hk hn c.mantissa_lt c.scale_le
    constructor
    · apply le_of_abs hs hl hg
    · intro h
      rw [← neg_le_neg_iff]
      apply le_of_abs (x := -x) _ _ _ (neg_le_neg h)
      · rwa [neg_mul_neg]
      · rwa [abs_neg, abs_neg, abs_neg]
      · rwa [abs_neg, abs_neg, abs_neg]

/-- A decimal can say something of every number that is between two decimals. -/
theorem fits_of_between {c d : Decimal} (hl : c.value ≤ x) (hu : x ≤ d.value) :
  Fits 0 x
  := by
  have hc := c.fits_value.mono (Nat.zero_le _)
  have hd := d.fits_value.mono (Nat.zero_le _)
  rw [fits_iff, pow_zero, mul_one] at hc hd ⊢
  rw [abs_lt] at hc hd ⊢
  constructor
  · linarith
  · linarith

end QuoteFeed.Decimal
