import QuoteFeed.Market.Basic
import QuoteFeed.Proofs.Decimal.Product

/-!
# The least order size

The least order size of a market is its least movement, counted in units of `10 ^ -precision` and
rounded up.  No digit of the count is lost (`minSize?_exact`).  A size is absent if it is negative
or does not fit 64 bits.  It is also absent if the power of ten alone does not fit 64 bits, though
the size may be small (`minSize?_eq_none_iff`, `minSize?_of_fine_unit`).
-/

namespace QuoteFeed.Market

open Decimal (mantissaBound)
open Numeral (max64)

/-- The least movement of a market, counted in units of `10 ^ -precision`. -/
def units (m : Market) (precision : ℕ) : ℚ :=
  m.minMovement.value * 10 ^ precision

variable {m : Market} {precision : ℕ}

/-! ### The power of ten -/

/-- Twenty zeros are too many for 64 bits. -/
theorem pow_le_max64_iff :
  10 ^ precision ≤ max64 ↔ precision < 20
  := by
  constructor
  · intro h
    by_contra hle
    have hpow : 10 ^ 20 ≤ 10 ^ precision := Nat.pow_le_pow_right (by decide) (Nat.le_of_not_lt hle)
    have hmax : max64 < 10 ^ 20 := by decide
    omega
  · intro h
    have hpow : 10 ^ precision ≤ 10 ^ 19 :=
      Nat.pow_le_pow_right (by decide) (Nat.le_of_lt_succ h)
    have hmax : 10 ^ 19 ≤ max64 := by decide
    omega

theorem max64_lt_pow_min_iff :
  max64 < Nat.pow 10 (min precision 20) ↔ max64 < 10 ^ precision
  := by
  rw [← not_le, ← not_le, pow_le_max64_iff]
  apply not_congr
  change 10 ^ min precision 20 ≤ max64 ↔ _
  rw [pow_le_max64_iff]
  omega

/-- A power of ten that fits 64 bits is a decimal. -/
theorem exists_ofWhole?_pow (h : 10 ^ precision ≤ max64) :
  ∃ factor, Decimal.ofWhole? false (10 ^ precision) = some factor
  := by
  have hmax : max64 < mantissaBound := by decide
  have hfits : 10 ^ precision < mantissaBound ∧ 0 ≤ Decimal.maxScale :=
    ⟨h.trans_lt hmax, Nat.zero_le _⟩
  exact ⟨⟨false, 10 ^ precision, 0, hfits.1, hfits.2⟩, dif_pos hfits⟩

/-- A count that is not negative grows with the precision. -/
theorem units_mono {precision' : ℕ} (h : 0 ≤ m.units precision) (hle : precision ≤ precision') :
  m.units precision ≤ m.units precision'
  := by
  have hpow : (10 : ℚ) ^ precision ≤ 10 ^ precision' := pow_le_pow_right₀ (by norm_num) hle
  have hvalue : 0 ≤ m.minMovement.value := nonneg_of_mul_nonneg_left h (by positivity)
  apply mul_le_mul_of_nonneg_left hpow hvalue

/-! ### The size -/

/-- A size is the ceiling of the count, if neither the power of ten nor the ceiling is too great for
64 bits, and the count is not negative. -/
theorem minSize?_eq (m : Market) (precision : ℕ) :
  m.minSize? precision =
    if 10 ^ precision ≤ max64 ∧ 0 ≤ m.units precision ∧ ⌈m.units precision⌉ ≤ max64 then
      some ⌈m.units precision⌉.toNat
    else
      none
  := by
  rw [minSize?]
  by_cases hten : 10 ^ precision ≤ max64
  · obtain ⟨factor, hfactor⟩ := exists_ofWhole?_pow hten
    have hexact : Decimal.Exactly (m.units precision) (m.minMovement.mul? factor) :=
      Decimal.exactly_mul? m.minMovement hfactor
    rw [if_neg (by rw [gt_iff_lt, max64_lt_pow_min_iff]; omega)]
    dsimp only [Nat.pow_eq]
    rw [hfactor, Option.bind_eq_bind, Option.bind_some]
    generalize m.minMovement.mul? factor = product at hexact
    cases hexact with
    | overflow h =>
      rw [Option.bind_none, if_neg]
      rintro ⟨-, hnonneg, hceil⟩
      rw [abs_of_nonneg hnonneg] at h
      have hle : m.units precision ≤ max64 := Int.ceil_le.1 hceil
      have hmax : (max64 : ℚ) < mantissaBound := by
        exact_mod_cast (by decide : max64 < mantissaBound)
      linarith
    | @exact d h hs =>
      have hceil := d.ceil_value
      rw [h] at hceil
      rw [Option.bind_some, Decimal.ceil_fst]
      by_cases hn : d.negative = true
      · rw [if_pos (Or.inl hn), if_neg]
        rintro ⟨-, hnonneg, -⟩
        exact absurd (hs.1 hn) (not_lt.2 hnonneg)
      · rw [if_neg hn] at hceil
        have hnonneg : 0 ≤ m.units precision := not_lt.1 (mt hs.2 hn)
        rw [hceil, Int.toNat_natCast]
        by_cases hfits : d.ceil.2 ≤ max64
        · rw [if_neg (not_or.2 ⟨hn, Nat.not_lt.2 hfits⟩),
            if_pos ⟨hten, hnonneg, by exact_mod_cast hfits⟩]
        · rw [if_pos (Or.inr (Nat.lt_of_not_le hfits)),
            if_neg fun h => hfits (by exact_mod_cast h.2.2)]
  · rw [if_pos (by rw [gt_iff_lt, max64_lt_pow_min_iff]; omega), if_neg (by tauto)]

theorem minSize?_eq_some_iff {n : ℕ} :
  m.minSize? precision = some n ↔
    10 ^ precision ≤ max64 ∧ 0 ≤ m.units precision ∧ n ≤ max64 ∧ (n : ℤ) = ⌈m.units precision⌉
  := by
  rw [minSize?_eq, Option.ite_none_right_eq_some, Option.some.injEq]
  constructor
  · rintro ⟨⟨hten, hnonneg, hfits⟩, rfl⟩
    have hceil : (⌈m.units precision⌉.toNat : ℤ) = ⌈m.units precision⌉ :=
      Int.toNat_of_nonneg (Int.ceil_nonneg hnonneg)
    refine ⟨hten, hnonneg, ?_, hceil⟩
    omega
  · rintro ⟨hten, hnonneg, hfits, hceil⟩
    rw [← hceil]
    exact ⟨⟨hten, hnonneg, by exact_mod_cast hfits⟩, Int.toNat_natCast n⟩

/-- Every size is the exact ceiling of the least movement in units of `10 ^ -precision`, and all
such ceilings are sizes as long as they and the power of ten fit 64 bits.  The product by the power
of ten is not rounded.  So a least movement that is not zero has a size that is not zero, and with
more precision sizes do not decrease. -/
theorem minSize?_exact (m : Market) (precision : ℕ) :
  (∀ n, m.minSize? precision = some n ↔
      10 ^ precision ≤ max64 ∧ 0 ≤ m.units precision ∧ n ≤ max64 ∧
        (n : ℤ) = ⌈m.units precision⌉) ∧
    (∀ factor product, Decimal.ofWhole? false (10 ^ precision) = some factor →
      m.minMovement.mul? factor = some product → product.value = m.units precision) ∧
    (∀ n, m.minSize? precision = some n → 0 < m.minMovement.value → 1 ≤ n) ∧
    ∀ n precision' n', m.minSize? precision = some n → precision ≤ precision' →
      m.minSize? precision' = some n' → n ≤ n'
  := by
  refine ⟨fun n => minSize?_eq_some_iff, ?_, ?_, ?_⟩
  · intro factor product hfactor hproduct
    have hexact := Decimal.exactly_mul? m.minMovement hfactor
    rw [hproduct] at hexact
    cases hexact with
    | exact h hs => exact h
  · intro n hn hpos
    obtain ⟨-, -, -, hceil⟩ := minSize?_eq_some_iff.1 hn
    have hunits : 0 < m.units precision := mul_pos hpos (by positivity)
    rw [← Int.ceil_pos, ← hceil] at hunits
    exact_mod_cast hunits
  · intro n precision' n' hn hle hn'
    obtain ⟨-, hnonneg, -, hceil⟩ := minSize?_eq_some_iff.1 hn
    obtain ⟨-, -, -, hceil'⟩ := minSize?_eq_some_iff.1 hn'
    have hunits := Int.ceil_le_ceil (units_mono hnonneg hle)
    rw [← hceil, ← hceil'] at hunits
    exact_mod_cast hunits

/-- A size is absent if it is negative or does not fit 64 bits, and if the power of ten does not fit
64 bits. -/
theorem minSize?_eq_none_iff (m : Market) (precision : ℕ) :
  m.minSize? precision = none ↔
    m.units precision < 0 ∨ max64 < 10 ^ precision ∨ (max64 : ℤ) < ⌈m.units precision⌉
  := by
  rw [minSize?_eq, ite_eq_right_iff]
  simp only [reduceCtorEq, imp_false, not_and_or, not_le]
  tauto

/-- A market whose least movement is a thousandth. -/
def thousandths : Market :=
  { id := ⟨"BTCUSD"⟩
    base := "BTC"
    quote := "USD"
    priceScale := 100
    minMovement := ⟨false, 1, 3, by decide, by decide⟩
    tradable := true }

/-- A thousandth has a size of 18 digits at 20 places, which fits 64 bits, and yet the size is
absent. -/
theorem minSize?_of_fine_unit :
  0 ≤ thousandths.minMovement.value ∧ thousandths.minSize? 20 = none ∧
    ⌈thousandths.units 20⌉ = 10 ^ 17 ∧ ¬ (max64 : ℤ) < ⌈thousandths.units 20⌉
  := by
  have hunits : thousandths.units 20 = (10 ^ 17 : ℤ) := by
    norm_num [units, thousandths, Decimal.value]
  have hceil : ⌈thousandths.units 20⌉ = 10 ^ 17 := by rw [hunits, Int.ceil_intCast]
  refine ⟨?_, by decide, hceil, ?_⟩
  · norm_num [thousandths, Decimal.value]
  · rw [hceil]
    decide

end QuoteFeed.Market
