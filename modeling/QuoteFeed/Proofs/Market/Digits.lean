import Mathlib.Algebra.Order.Ring.Nat
import Mathlib.Data.Nat.Log
import Mathlib.Order.Bounds.Basic
import QuoteFeed.Market.Basic

/-!
# The price digits

The digits of a price scale are counted along the powers of ten, up to the first that is not below
the scale.  The bound of the count is a power of ten only as long as that fits 64 bits, and the
greatest number of 64 bits from then on (`nextBound_min_pow`).  No scale is above that number, so
the count ends (`Reaches`), with the least exponent whose power of ten is not below the scale
(`significantDigits_least`).
-/

namespace QuoteFeed.Market

open Numeral (max64)

/-- The count that stands at `digits` and `bound` ends with `count` digits: as long as the bound is
below the scale it goes on, and there is a turn after which it is not. -/
inductive Reaches (scale : ℕ) : (digits bound count : ℕ) → Prop where
  | here {digits bound : ℕ} (h : scale ≤ bound) :
    Reaches scale digits bound digits
  | later {digits bound count : ℕ} (h : bound < scale)
      (hrest : Reaches scale (digits + 1) (nextBound bound) count) :
    Reaches scale digits bound count

variable {scale digits bound count : ℕ}

/-! ### The bound -/

/-- A turn takes the power of ten one further, whether or not the bound is held back. -/
theorem nextBound_min_pow (n : ℕ) :
  nextBound (min (10 ^ n) max64) = min (10 ^ (n + 1)) max64
  := by
  rw [nextBound, Nat.pow_succ]
  omega

/-- For a scale of 64 bits it makes no difference that the bound is held back. -/
theorem le_min_pow_iff (hscale : scale ≤ max64) {n : ℕ} :
  scale ≤ min (10 ^ n) max64 ↔ scale ≤ 10 ^ n
  := by
  rw [Nat.le_min, and_iff_left hscale]

/-! ### The count -/

theorem Reaches.digits_le (h : Reaches scale digits bound count) :
  digits ≤ count
  := by
  induction h with
  | here h => apply Nat.le_refl
  | later h hrest ih => apply Nat.le_of_succ_le ih

/-- A count that ends is made in full if as many turns are allowed as it adds digits, and no
further turn changes it. -/
theorem Reaches.countDigits_eq (h : Reaches scale digits bound count) (turns : ℕ)
    (hturns : count ≤ digits + turns) :
  countDigits scale turns digits bound = count
  := by
  induction h generalizing turns with
  | here h =>
    cases turns with
    | zero => rfl
    | succ turns => rw [countDigits, if_neg (Nat.not_lt.2 h)]
  | later h hrest ih =>
    have hle := hrest.digits_le
    obtain ⟨turns, rfl⟩ := Nat.exists_eq_add_of_le' (show 1 ≤ turns by omega)
    rw [countDigits, if_pos h]
    apply ih
    omega

theorem Reaches.unique {count' : ℕ} (h : Reaches scale digits bound count)
    (h' : Reaches scale digits bound count') :
  count = count'
  :=
  calc
    count = countDigits scale (count + count') digits bound :=
      (h.countDigits_eq _ (by omega)).symm
    _ = count' := h'.countDigits_eq _ (by omega)

/-- After any number of digits up to the least exponent, the count stands at the power of ten, or
what is held of it, and from there it ends with that exponent. -/
theorem reaches_clog (hscale : scale ≤ max64) {missing : ℕ}
    (hmissing : digits + missing = Nat.clog 10 scale) :
  Reaches scale digits (min (10 ^ digits) max64) (Nat.clog 10 scale)
  := by
  -- the missing digits are the measure, and that the bound is a capped power is the invariant
  induction missing generalizing digits with
  | zero =>
    obtain rfl : digits = Nat.clog 10 scale := hmissing
    apply Reaches.here
    rw [le_min_pow_iff hscale]
    apply Nat.le_pow_clog (by decide)
  | succ missing ih =>
    apply Reaches.later
    · rw [← Nat.not_le, le_min_pow_iff hscale, Nat.not_le, ← Nat.lt_clog_iff_pow_lt (by decide)]
      omega
    · rw [nextBound_min_pow]
      apply ih
      omega

/-- Twenty turns are enough for 64 bits. -/
theorem clog_le_twenty (hscale : scale ≤ max64) :
  Nat.clog 10 scale ≤ 20
  := by
  apply Nat.clog_le_of_le_pow
  apply hscale.trans (by decide)

/-! ### The digits -/

/-- For every scale of 64 bits the count ends, after at most twenty turns, and gives the least `d`
with `scale ≤ 10 ^ d`.  This includes the scales for which the last bound is no power of ten. -/
theorem significantDigits_least (hscale : scale ≤ max64) :
  (∀ count, Reaches scale 0 1 count ↔ count = significantDigits scale) ∧
    significantDigits scale ≤ 20 ∧
    IsLeast {d | scale ≤ 10 ^ d} (significantDigits scale)
  := by
  have hreaches : Reaches scale 0 1 (Nat.clog 10 scale) :=
    reaches_clog hscale (Nat.zero_add _)
  have hdigits : significantDigits scale = Nat.clog 10 scale :=
    hreaches.countDigits_eq 20 (clog_le_twenty hscale)
  rw [hdigits]
  refine ⟨fun count => ⟨fun h => h.unique hreaches, ?_⟩, clog_le_twenty hscale, ?_, ?_⟩
  · rintro rfl
    apply hreaches
  · apply Nat.le_pow_clog (by decide)
  · intro d hd
    apply Nat.clog_le_of_le_pow hd

/-- The least scale above all powers of ten of 64 bits has twenty digits, though the last bound is
below `10 ^ 20`. -/
theorem significantDigits_above_powers :
  10 ^ 19 + 1 ≤ max64 ∧ max64 < 10 ^ 20 ∧
    (∀ count, Reaches (10 ^ 19 + 1) 0 1 count ↔ count = 20) ∧
    IsLeast {d | 10 ^ 19 + 1 ≤ 10 ^ d} 20
  := by
  have hscale : 10 ^ 19 + 1 ≤ max64 := by decide
  have hdigits : significantDigits (10 ^ 19 + 1) = 20 := by decide
  obtain ⟨hreaches, -, hleast⟩ := significantDigits_least hscale
  rw [hdigits] at hreaches hleast
  exact ⟨hscale, by decide, hreaches, hleast⟩

end QuoteFeed.Market
