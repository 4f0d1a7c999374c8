import Mathlib.Tactic.FieldSimp
import QuoteFeed.Decimal.Arithmetic
import QuoteFeed.Proofs.Decimal.Rounding

/-!
# The quotient of decimals

At every step of its development a quotient has all its digits down to a place, and a remainder
below the divisor (`Develops`).  A development ends with all of the quotient, or with the quotient
rounded at the last place at which it fits, or with nothing if it does not fit without places
(`Outcome`).  Trailing zeros are dropped afterwards without changing the value (`Trims`), and so the
quotient is approximated as well as a decimal can (`approximates_div?`).
-/

namespace QuoteFeed.Decimal

variable {y : ℚ} {divisor : ℕ} {x : Development}

/-- The digits and the remainder of a development are those of `y` at its places. -/
structure Develops (y : ℚ) (divisor : ℕ) (x : Development) : Prop where
  value : (x.quotient : ℚ) + x.remainder / divisor = y * 10 ^ x.scale
  remainder_lt : x.remainder < divisor
  quotient_lt : x.quotient < mantissaBound
  scale_le : x.scale ≤ maxScale

/-- What the development of `y` ends with. -/
inductive Outcome (y : ℚ) : Option Developed → Prop where
  | overflow (h : ¬ Fits 0 y) : Outcome y none
  | exact {z : Developed} (hq : z.quotient < mantissaBound) (hs : z.scale ≤ maxScale)
      (h : (z.quotient : ℚ) = y * 10 ^ z.scale) : Outcome y (some z)
  | rounded {z : Developed} (hs : IsGreatest {k | k ≤ maxScale ∧ Fits k y} z.scale)
      (h : RoundsTo (y * 10 ^ z.scale) z.quotient) : Outcome y (some z)

theorem rest_lt_one {r : ℕ} (h : r < divisor) :
  (r : ℚ) / divisor < 1
  := by
  rw [div_lt_one (by exact_mod_cast Nat.zero_lt_of_lt h)]
  exact_mod_cast h

/-- The digits are those of `y`, and less than one unit is missing. -/
theorem Develops.bounds (h : Develops y divisor x) :
  (x.quotient : ℚ) ≤ y * 10 ^ x.scale ∧ y * 10 ^ x.scale < x.quotient + 1
  := by
  have hnonneg : (0 : ℚ) ≤ x.remainder / divisor := by positivity
  have hlt := rest_lt_one h.remainder_lt
  rw [← h.value]
  constructor
  · linarith
  · linarith

theorem Develops.le_more (h : Develops y divisor x) (p : ℕ) :
  ((x.quotient * 10 ^ p : ℕ) : ℚ) ≤ y * 10 ^ (x.scale + p)
  := by
  rw [zpow_add₀ (by norm_num), zpow_natCast, ← mul_assoc]
  push_cast
  apply mul_le_mul_of_nonneg_right h.bounds.1 (by positivity)

/-! ### One step -/

/-- A development that reaches the bound without places ends with nothing. -/
theorem outcome_overflow (hy : 0 ≤ y) {s : ℤ} (hs : s ≤ 0)
    (h : (mantissaBound : ℚ) - 1 / 2 ≤ y * 10 ^ s) :
  Outcome y none
  := by
  apply Outcome.overflow
  rw [fits_iff, abs_of_nonneg hy, pow_zero, mul_one, not_lt]
  have hpow : (10 : ℚ) ^ s ≤ 1 := zpow_le_one_of_nonpos₀ (by norm_num) hs
  have hle : y * 10 ^ s ≤ y * 1 := mul_le_mul_of_nonneg_left hpow hy
  linarith

/-- A development that ends at a place, and would reach the bound at the next, ends with the rounded
quotient. -/
theorem outcome_rounded (hy : 0 ≤ y) {k q : ℕ} {inexact : Bool} (hk : k ≤ maxScale)
    (hq : q < mantissaBound) (h : RoundsTo (y * 10 ^ k) q)
    (hlast : k = maxScale ∨ (mantissaBound : ℚ) - 1 / 2 ≤ y * 10 ^ (k + 1)) :
  Outcome y (some ⟨k, q, inexact⟩)
  := by
  have hf : Fits k y := by
    use q, hq
    rwa [abs_of_nonneg hy]
  apply Outcome.rounded _ h
  use ⟨hk, hf⟩
  rintro j ⟨hj, hfj⟩
  by_contra hlt
  obtain rfl | hlast := hlast
  · exact hlt hj
  · have hpow : (10 : ℚ) ^ (k + 1) ≤ 10 ^ j :=
      pow_le_pow_right₀ (by norm_num) (Nat.lt_of_not_le hlt)
    have hle : y * 10 ^ (k + 1) ≤ y * 10 ^ j := mul_le_mul_of_nonneg_left hpow hy
    rw [fits_iff, abs_of_nonneg hy] at hfj
    linarith

/-- The quotient rounded by its remainder. -/
theorem roundsTo_remainder {q r : ℕ} (hd : r < divisor) :
  RoundsTo (q + r / divisor)
    (if 2 * r > divisor ∨ (2 * r = divisor ∧ q % 2 = 1) then q + 1 else q)
  := by
  have hpos : (0 : ℚ) < divisor := by exact_mod_cast Nat.zero_lt_of_lt hd
  have hlt : (r : ℚ) / divisor < 1 / 2 ↔ 2 * r < divisor := by
    rw [div_lt_div_iff₀ hpos (by norm_num), one_mul, mul_comm]
    exact_mod_cast Iff.rfl
  have heq : (r : ℚ) / divisor = 1 / 2 ↔ 2 * r = divisor := by
    rw [div_eq_div_iff hpos.ne' (by norm_num), one_mul, mul_comm]
    exact_mod_cast Iff.rfl
  split
  case isTrue h =>
    apply roundsTo_of_gt (rest_lt_one hd).le
    obtain h | ⟨h, ho⟩ := h
    · left
      rw [← not_le, le_iff_lt_or_eq, hlt, heq]
      omega
    · right
      exact ⟨heq.2 h, Nat.not_even_iff.2 ho⟩
  case isFalse h =>
    apply roundsTo_of_lt (by positivity)
    by_cases hhalf : 2 * r = divisor
    · right
      exact ⟨heq.2 hhalf, Nat.even_iff.2 (by omega)⟩
    · left
      rw [hlt]
      omega

/-- The bound without its last digit. -/
theorem roundsTo_dropBound (hl : (mantissaBound : ℚ) - 1 / 2 ≤ y * 10)
    (hu : y * 10 ≤ mantissaBound) :
  RoundsTo y (dropDigit true mantissaBound)
  := by
  have hb : (mantissaBound : ℚ) = 79228162514264337593543950336 := by norm_num [mantissaBound]
  have hd : dropDigit true mantissaBound = 7922816251426433759354395034 := by decide
  rw [hb] at hl hu
  rw [hd]
  have hlt : |y - (7922816251426433759354395034 : ℕ)| < 1 / 2 := by
    rw [abs_lt]
    constructor
    · push_cast
      linarith
    · push_cast
      linarith
  exact ⟨hlt.le, fun he => absurd he hlt.ne⟩

/-- A quotient that is rounded to the bound is rounded one place earlier, if there is one. -/
theorem outcome_dropBound (hy : 0 ≤ y) {k : ℕ} (inexact : Bool) (hk : k ≤ maxScale)
    (h : RoundsTo (y * 10 ^ k) mantissaBound) (hb : y * 10 ^ k ≤ mantissaBound) :
  Outcome y (if (k : ℤ) - 1 < 0 then none
    else some ⟨((k : ℤ) - 1).toNat, dropDigit true mantissaBound, inexact⟩)
  := by
  have hnear := (abs_le.1 h.near).1
  cases k with
  | zero =>
    rw [if_pos (by decide)]
    apply outcome_overflow hy (le_refl 0)
    rw [zpow_zero]
    rw [pow_zero] at hnear
    linarith
  | succ k =>
    have hz : (((k + 1 : ℕ) : ℤ) - 1).toNat = k := by omega
    rw [pow_succ, ← mul_assoc] at hnear hb
    have hround := roundsTo_dropBound (y := y * 10 ^ k) (by linarith) hb
    rw [if_neg (by omega), hz]
    apply outcome_rounded hy (Nat.le_of_succ_le hk) (by decide) hround
    right
    rw [pow_succ, ← mul_assoc]
    linarith

/-- A development that can go no further is rounded at its last place. -/
theorem outcome_finish (hy : 0 ≤ y) (h : Develops y divisor x) (hs : 0 ≤ x.scale)
    (hlast : x.scale = maxScale ∨ mantissaBound ≤ x.quotient * 10) :
  Outcome y (x.finish divisor)
  := by
  obtain ⟨k, hk⟩ := Int.eq_ofNat_of_zero_le hs
  have hround := roundsTo_remainder (q := x.quotient) h.remainder_lt
  have hle := h.scale_le
  have hb : y * 10 ^ x.scale ≤ mantissaBound := by
    have hq : (x.quotient : ℚ) + 1 ≤ mantissaBound := by exact_mod_cast h.quotient_lt
    linarith [h.bounds.2]
  have hq := h.bounds.1
  rw [h.value] at hround
  rw [hk] at hround hle hlast hb hq
  rw [zpow_natCast] at hround hb hq
  replace hle : k ≤ maxScale := by exact_mod_cast hle
  rw [Development.finish, hk]
  generalize (if 2 * x.remainder > divisor ∨ (2 * x.remainder = divisor ∧ x.quotient % 2 = 1) then
    x.quotient + 1 else x.quotient) = q at hround ⊢
  split
  case isTrue heq =>
    subst heq
    apply outcome_dropBound hy x.inexact hle hround hb
  case isFalse hne =>
    rw [Int.toNat_natCast]
    apply outcome_rounded hy hle (lt_of_le_of_ne (hround.le hb) hne) hround
    obtain hlast | hlast := hlast
    · left
      exact_mod_cast hlast
    · right
      have hlast : (mantissaBound : ℚ) ≤ x.quotient * 10 := by exact_mod_cast hlast
      rw [pow_succ, ← mul_assoc]
      linarith

/-- A number that lacks `g` of a unit is rounded without its last digit. -/
theorem roundsTo_dropDigit {q : ℕ} {g : ℚ} (h0 : 0 ≤ g) (h1 : g < 1) {sticky : Bool}
    (hs : sticky = true ↔ 0 < g) :
  RoundsTo ((q + g) / 10) (dropDigit sticky q)
  := by
  have hq : (q : ℚ) = 10 * (q / 10 : ℕ) + (q % 10 : ℕ) := by
    exact_mod_cast (Nat.div_add_mod q 10).symm
  have hsum : ((q : ℚ) + g) / 10 = (q / 10 : ℕ) + ((q % 10 : ℕ) + g) / 10 := by
    rw [hq]
    ring
  have hdigit : q % 10 < 10 := Nat.mod_lt q (by decide)
  rw [hsum, dropDigit]
  generalize q / 10 = tens at *
  generalize q % 10 = r at *
  split
  case isTrue h =>
    have hr : (r : ℚ) ≤ 9 := by exact_mod_cast Nat.le_of_lt_succ hdigit
    apply roundsTo_of_gt (by linarith)
    obtain h | ⟨rfl, h⟩ := h
    · have hr : (6 : ℚ) ≤ r := by exact_mod_cast h
      left
      linarith
    · obtain hg | hg := lt_or_eq_of_le h0
      · left
        push_cast
        linarith
      · right
        have ho : tens % 2 = 1 := h.resolve_left fun h => (hs.1 h).ne hg
        refine ⟨?_, Nat.not_even_iff.2 ho⟩
        rw [← hg]
        norm_num
  case isFalse h =>
    apply roundsTo_of_lt (by positivity)
    obtain hlt | rfl : r < 5 ∨ r = 5 := by omega
    · have hr : (r : ℚ) ≤ 4 := by exact_mod_cast Nat.le_of_lt_succ hlt
      left
      linarith
    · right
      have hg : g = 0 := by
        by_contra hne
        apply h
        right
        exact ⟨rfl, Or.inl (hs.2 (lt_of_le_of_ne h0 (Ne.symm hne)))⟩
      rw [hg]
      exact ⟨by norm_num, Nat.even_iff.2 (by omega)⟩

/-- Digits that pass the bound are rounded without the last of them, if there is a place less. -/
theorem outcome_dropDigit (hy : 0 ≤ y) {scale : ℤ} {q : ℕ} {g : ℚ} {sticky : Bool} (inexact : Bool)
    (hscale : scale ≤ maxScale) (h0 : 0 ≤ g) (h1 : g < 1) (hs : sticky = true ↔ 0 < g)
    (h : q + g = y * 10 ^ scale) (hover : mantissaBound ≤ q) (hq : q < 2 * mantissaBound) :
  Outcome y (if scale - 1 < 0 then none
    else some ⟨(scale - 1).toNat, dropDigit sticky q, inexact⟩)
  := by
  have hover : (mantissaBound : ℚ) ≤ q := by exact_mod_cast hover
  split
  case isTrue hneg =>
    apply outcome_overflow hy (s := scale) (by omega)
    linarith
  case isFalse hneg =>
    obtain ⟨k, rfl⟩ : ∃ k : ℕ, scale = (k + 1 : ℕ) := ⟨(scale - 1).toNat, by omega⟩
    have hz : (((k + 1 : ℕ) : ℤ) - 1).toNat = k := by omega
    rw [zpow_natCast] at h
    have hround := roundsTo_dropDigit (q := q) h0 h1 hs
    have hten : y * 10 ^ k = (q + g) / 10 := by
      rw [h, pow_succ]
      ring
    rw [← hten] at hround
    have hlt : dropDigit sticky q < mantissaBound := by
      have hq : (q : ℚ) + 1 ≤ 2 * mantissaBound := by exact_mod_cast hq
      have hpred : ((mantissaBound - 1 : ℕ) : ℚ) = mantissaBound - 1 :=
        Nat.cast_pred (by decide)
      have hfive : (5 : ℚ) ≤ mantissaBound := by exact_mod_cast (by decide : 5 ≤ mantissaBound)
      have hle : y * 10 ^ k ≤ (mantissaBound - 1 : ℕ) := by
        rw [hten, hpred]
        linarith
      apply Nat.lt_of_le_pred (by decide) (hround.le hle)
    rw [hz]
    apply outcome_rounded hy (by omega) hlt hround
    right
    rw [← h]
    linarith

/-- The digits of `p` more places. -/
theorem Develops.more (h : Develops y divisor x) (p : ℕ) :
  ((x.quotient * 10 ^ p + x.remainder * 10 ^ p / divisor : ℕ) : ℚ) +
      (x.remainder * 10 ^ p % divisor : ℕ) / divisor =
    y * 10 ^ (x.scale + p)
  := by
  have hne : (divisor : ℚ) ≠ 0 := by exact_mod_cast (Nat.zero_lt_of_lt h.remainder_lt).ne'
  have hdiv : (divisor : ℚ) * (x.remainder * 10 ^ p / divisor : ℕ) +
      (x.remainder * 10 ^ p % divisor : ℕ) = x.remainder * 10 ^ p := by
    exact_mod_cast Nat.div_add_mod (x.remainder * 10 ^ p) divisor
  rw [zpow_add₀ (by norm_num), zpow_natCast, ← mul_assoc, ← h.value]
  push_cast
  field_simp
  linarith

/-- More places are developed. -/
theorem outcome_extend (hy : 0 ≤ y) (h : Develops y divisor x) {p fuel : ℕ} (h9 : p ≤ 9)
    (hs : x.scale + p ≤ maxScale)
    (hp : x.quotient * 10 ^ p < mantissaBound ∨ x.scale + p ≤ 0)
    (ih : ∀ x', Develops y divisor x' → x'.scale = x.scale + p →
      Outcome y (develop divisor fuel x')) :
  Outcome y (develop.extend divisor fuel x p)
  := by
  have hpos : 0 < divisor := Nat.zero_lt_of_lt h.remainder_lt
  let r := x.remainder * 10 ^ p
  have hvalue : ((x.quotient * 10 ^ p + r / divisor : ℕ) : ℚ) + (r % divisor : ℕ) / divisor =
      y * 10 ^ (x.scale + p) := h.more p
  have hrest : (0 : ℚ) ≤ (r % divisor : ℕ) / divisor := by positivity
  have hlast := rest_lt_one (Nat.mod_lt r hpos)
  have hle := h.le_more p
  have hlt : r / divisor < 10 ^ p := by
    apply Nat.div_lt_of_lt_mul
    apply Nat.mul_lt_mul_of_pos_right h.remainder_lt (by positivity)
  have hten : 10 ^ p ≤ 10 ^ 9 := Nat.pow_le_pow_right (by decide) h9
  rw [develop.extend]
  change Outcome y (if x.quotient * 10 ^ p ≥ mantissaBound then none
    else if x.quotient * 10 ^ p + r / divisor ≥ mantissaBound then
      if x.scale + p - 1 < 0 then none
      else some ⟨(x.scale + p - 1).toNat,
        dropDigit (r % divisor ≠ 0) (x.quotient * 10 ^ p + r / divisor), x.inexact⟩
    else develop divisor fuel
      ⟨x.scale + p, x.quotient * 10 ^ p + r / divisor, r % divisor, x.inexact⟩)
  have hq : x.quotient * 10 ^ p + r / divisor < x.quotient * 10 ^ p + mantissaBound := by
    have : 10 ^ 9 < mantissaBound := by decide
    omega
  generalize x.quotient * 10 ^ p + r / divisor = q at *
  split
  case isTrue hbound =>
    apply outcome_overflow hy (hp.resolve_left (Nat.not_lt.2 hbound))
    have hbound : (mantissaBound : ℚ) ≤ (x.quotient * 10 ^ p : ℕ) := by exact_mod_cast hbound
    linarith
  case isFalse hbound =>
    split
    case isTrue hover =>
      apply outcome_dropDigit hy x.inexact hs hrest hlast (by simp [hpos]) hvalue hover
      omega
    case isFalse hfits =>
      apply ih
      · exact ⟨hvalue, Nat.mod_lt _ hpos, Nat.lt_of_not_le hfits, hs⟩
      · rfl

/-- A run of numbers with a property ends before the first without it. -/
theorem length_takeWhile_range' (P : ℕ → Bool) (start n : ℕ) :
  let p := ((List.range' start n).takeWhile P).length
  p ≤ n ∧ (∀ i < p, P (start + i) = true) ∧ (p < n → P (start + p) = false)
  := by
  induction n generalizing start with
  | zero => simp
  | succ n ih =>
    rw [List.range'_succ]
    cases hs : P start with
    | false => simp [hs]
    | true =>
      obtain ⟨hle, hrun, hend⟩ := ih (start + 1)
      rw [List.takeWhile_cons_of_pos hs]
      refine ⟨Nat.succ_le_succ hle, ?_, ?_⟩
      · intro i hi
        cases i with
        | zero => exact hs
        | succ i =>
          rw [← Nat.add_assoc, Nat.add_right_comm]
          apply hrun i (Nat.lt_of_succ_lt_succ hi)
      · intro hlt
        have h := hend (Nat.lt_of_succ_lt_succ hlt)
        rwa [Nat.add_assoc, Nat.add_comm 1] at h

/-- There is room for `roomFor` more places, and for nine of them or for no further one. -/
theorem roomFor_spec (scale : ℤ) (quotient : ℕ) :
  let p := roomFor scale quotient
  p ≤ 9 ∧ (0 < p → p ≤ placesLeft scale ∧ quotient * 10 ^ p < mantissaBound) ∧
    (p < 9 → placesLeft scale < p + 1 ∨ mantissaBound ≤ quotient * 10 ^ (p + 1))
  := by
  obtain ⟨hle, hrun, hend⟩ := length_takeWhile_range' (fun p =>
    p ≤ placesLeft scale ∧ quotient * Nat.pow 10 p < mantissaBound) 1 9
  use hle
  constructor
  · intro hp
    obtain ⟨i, hi⟩ := Nat.exists_eq_succ_of_ne_zero hp.ne'
    have hlt : i < roomFor scale quotient := by omega
    have h := of_decide_eq_true (hrun i hlt)
    rw [Nat.add_comm 1] at h
    rw [hi]
    exact h
  · intro hp
    have h := of_decide_eq_false (hend hp)
    rw [Nat.add_comm 1, not_and_or, not_le, not_lt] at h
    exact h

/-- A development ends. -/
theorem outcome_develop (hy : 0 ≤ y) {fuel : ℕ} (h : Develops y divisor x)
    (hf : maxScale - x.scale < fuel) :
  Outcome y (develop divisor fuel x)
  := by
  induction fuel generalizing x with
  | zero =>
    have := h.scale_le
    omega
  | succ fuel ih =>
    have step {x : Development} (h : Develops y divisor x) {p : ℕ} (h0 : 0 < p) (h9 : p ≤ 9)
        (hs : x.scale + p ≤ maxScale)
        (hp : x.quotient * 10 ^ p < mantissaBound ∨ x.scale + p ≤ 0)
        (hf : maxScale - x.scale < (fuel + 1 : ℕ)) :
        Outcome y (develop.extend divisor fuel x p) := by
      apply outcome_extend hy h h9 hs hp
      intro x' h' hscale
      apply ih h'
      omega
    rw [develop]
    split
    case isTrue hr =>
      have hvalue := h.value
      rw [hr, Nat.cast_zero, zero_div, add_zero] at hvalue
      split
      case isTrue hs =>
        obtain ⟨k, hk⟩ := Int.eq_ofNat_of_zero_le hs
        have hle := h.scale_le
        rw [hk] at hvalue hle ⊢
        rw [zpow_natCast] at hvalue
        exact .exact h.quotient_lt (by exact_mod_cast hle) hvalue
      case isFalse hs =>
        have hmax : (0 : ℤ) ≤ maxScale := by decide
        apply step h (by omega) (by omega) (by omega) (Or.inr (by omega)) hf
    case isFalse hr =>
      have hi : Develops y divisor { x with inexact := true } :=
        ⟨h.value, h.remainder_lt, h.quotient_lt, h.scale_le⟩
      obtain ⟨h9, hroom, hend⟩ := roomFor_spec x.scale x.quotient
      have hleft : placesLeft x.scale = maxScale - x.scale :=
        Int.toNat_of_nonneg (Int.sub_nonneg_of_le h.scale_le)
      have hmax : (0 : ℤ) ≤ maxScale := by decide
      dsimp only
      generalize roomFor x.scale x.quotient = p at *
      split
      case isTrue hnone =>
        have hover : mantissaBound ≤ x.quotient * 10 ^ (p + 1) := by
          apply (hend hnone.2.1).resolve_left
          omega
        have hover : (mantissaBound : ℚ) ≤ (x.quotient * 10 ^ (p + 1) : ℕ) := by
          exact_mod_cast hover
        apply outcome_overflow hy (s := x.scale + (p + 1 : ℕ)) (by omega)
        linarith [h.le_more (p + 1)]
      case isFalse hsome =>
        split
        case isTrue hp =>
          subst hp
          have hlast := hend (by decide)
          rw [Nat.zero_add, pow_one] at hlast
          apply outcome_finish hy hi
          · change 0 ≤ x.scale
            omega
          · apply hlast.imp_left
            intro hlast
            change x.scale = maxScale
            omega
        case isFalse hp =>
          obtain ⟨hplaces, hlt⟩ := hroom (Nat.pos_of_ne_zero hp)
          apply step hi (Nat.pos_of_ne_zero hp) h9 _ (Or.inl hlt) hf
          change x.scale + p ≤ maxScale
          omega

/-! ### Trailing zeros -/

/-- The digits `x'` at their places are the digits `x` at theirs, without some zeros. -/
structure Trims (x x' : ℕ × ℕ) : Prop where
  value : (x'.1 : ℚ) / 10 ^ x'.2 = x.1 / 10 ^ x.2
  le : x'.1 ≤ x.1
  scale_le : x'.2 ≤ x.2

theorem Trims.refl (x : ℕ × ℕ) :
  Trims x x
  := ⟨rfl, le_rfl, le_rfl⟩

theorem Trims.trans {x x' x'' : ℕ × ℕ} (h : Trims x x') (h' : Trims x' x'') :
  Trims x x''
  := ⟨h'.value.trans h.value, h'.le.trans h.le, h'.scale_le.trans h.scale_le⟩

theorem trims_dropZeros (bits p fuel : ℕ) (x : ℕ × ℕ) :
  Trims x (dropZeros bits p fuel x)
  := by
  induction fuel generalizing x with
  | zero => apply Trims.refl
  | succ fuel ih =>
    rw [dropZeros]
    split
    case isFalse => apply Trims.refl
    case isTrue h =>
      apply Trims.trans _ (ih _)
      obtain ⟨-, hs, hq⟩ := h
      have hmul : x.1 / Nat.pow 10 p * 10 ^ x.2 = x.1 * 10 ^ (x.2 - p) := by
        calc
          x.1 / Nat.pow 10 p * 10 ^ x.2 = x.1 / Nat.pow 10 p * (10 ^ p * 10 ^ (x.2 - p)) := by
            rw [← pow_add, Nat.add_sub_cancel' hs]
          _ = x.1 / Nat.pow 10 p * Nat.pow 10 p * 10 ^ (x.2 - p) := (Nat.mul_assoc _ _ _).symm
          _ = x.1 * 10 ^ (x.2 - p) := by rw [Nat.div_mul_cancel (Nat.dvd_of_mod_eq_zero hq)]
      refine ⟨?_, Nat.div_le_self _ _, Nat.sub_le _ _⟩
      rw [div_eq_div_iff (by positivity) (by positivity)]
      exact_mod_cast hmul

theorem trims_trimZeros (q scale : ℕ) :
  Trims (q, scale) (trimZeros q scale)
  := ((trims_dropZeros ..).trans (trims_dropZeros ..)).trans
    ((trims_dropZeros ..).trans (trims_dropZeros ..))

/-! ### Quotients -/

/-- Two numbers of one sign and one magnitude are equal. -/
theorem eq_of_abs_eq {x z : ℚ} (h : |z| = |x|) (hs : 0 ≤ x * z) :
  z = x
  := by
  rw [← sub_eq_zero, ← abs_eq_zero, abs_sub_of_mul_nonneg hs, h, sub_self, abs_zero]

/-- The sign of a quotient. -/
theorem div_value (a b : Decimal) :
  a.value / b.value = (if a.negative != b.negative then -1 else 1) * |a.value / b.value|
  := by
  rw [abs_div, abs_value, abs_value, value, value]
  cases a.negative with
  | true => cases b.negative <;> simp [neg_div, div_neg]
  | false => cases b.negative <;> simp [div_neg]

/-- The start of the development of a quotient. -/
theorem develops_start (a : Decimal) {b : Decimal} (hb : b.mantissa ≠ 0) (inexact : Bool) :
  Develops |a.value / b.value| b.mantissa
    ⟨(a.scale : ℤ) - b.scale, a.mantissa / b.mantissa, a.mantissa % b.mantissa, inexact⟩
  := by
  have hne : (b.mantissa : ℚ) ≠ 0 := by exact_mod_cast hb
  have hdiv : (b.mantissa : ℚ) * (a.mantissa / b.mantissa : ℕ) +
      (a.mantissa % b.mantissa : ℕ) = a.mantissa := by
    exact_mod_cast Nat.div_add_mod a.mantissa b.mantissa
  refine ⟨?_, Nat.mod_lt _ (Nat.pos_of_ne_zero hb),
    (Nat.div_le_self _ _).trans_lt a.mantissa_lt, ?_⟩
  · dsimp only
    rw [abs_div, abs_value, abs_value, zpow_sub₀ (by norm_num), zpow_natCast, zpow_natCast]
    field_simp
    linarith
  · have := a.scale_le
    change (a.scale : ℤ) - b.scale ≤ maxScale
    omega

/-- A decimal of the digits of `y`, with the sign of `x`. -/
theorem exists_ofParts? {x y : ℚ} {sign : Bool} (hx : x = (if sign then -1 else 1) * y) (hy : 0 ≤ y)
    {q scale : ℕ} (hq : q < mantissaBound) (hs : scale ≤ maxScale) :
  ∃ p, ofParts? (sign && q != 0) q scale = some p ∧ |p.value| = q / 10 ^ scale ∧ 0 ≤ x * p.value
  := by
  refine ⟨⟨sign && q != 0, q, scale, hq, hs⟩, ?_, ?_, ?_⟩
  · rw [ofParts?, dif_pos ⟨hq, hs⟩]
  · rw [abs_value]
  · have hp : (0 : ℚ) ≤ y * (q / 10 ^ scale) := by positivity
    rw [hx, value]
    cases sign with
    | false => simpa using hp
    | true =>
      cases q with
      | zero => simp
      | succ q => simpa using hp

/-- The quotient says what a decimal can say. -/
theorem approximates_div? (a : Decimal) {b : Decimal} (hb : b.mantissa ≠ 0) :
  Approximates (a.value / b.value) (a.div? b)
  := by
  have hy := abs_nonneg (a.value / b.value)
  have ended {z : Developed} (hq : z.quotient < mantissaBound) (hs : z.scale ≤ maxScale) :
      let t := if z.inexact then trimZeros z.quotient z.scale else (z.quotient, z.scale)
      ∃ p, ofParts? (a.negative != b.negative && t.1 != 0) t.1 t.2 = some p ∧
        |p.value| = z.quotient / 10 ^ z.scale ∧ 0 ≤ a.value / b.value * p.value := by
    intro t
    have ht : Trims (z.quotient, z.scale) t := by
      simp only [t]
      split
      · apply trims_trimZeros
      · apply Trims.refl
    rw [← ht.value]
    apply exists_ofParts? (div_value a b) hy (ht.le.trans_lt hq) (ht.scale_le.trans hs)
  rw [div?, if_neg hb]
  split
  case isTrue ha =>
    apply Approximates.exact
    rw [value, value, ha]
    simp [zero]
  case isFalse ha =>
    have hfuel : (maxScale : ℤ) - ((a.scale : ℤ) - b.scale) < (64 : ℕ) := by
      have := b.scale_le
      have : maxScale = 28 := rfl
      omega
    have houtcome := outcome_develop hy (develops_start a hb false) hfuel
    dsimp only
    generalize develop b.mantissa 64
      ⟨a.scale - b.scale, a.mantissa / b.mantissa, a.mantissa % b.mantissa, false⟩ = z at houtcome
    cases houtcome with
    | overflow h => exact .overflow fun hf => h (fits_abs.2 hf)
    | exact hq hs h =>
      obtain ⟨p, hp, habs, hsign⟩ := ended hq hs
      rw [Option.bind_eq_bind, Option.bind_some, hp]
      apply Approximates.exact
      rw [h, mul_div_cancel_right₀ _ (by positivity)] at habs
      apply eq_of_abs_eq habs hsign
    | @rounded z hs h =>
      obtain ⟨n, hn, hround⟩ := fits_abs.1 hs.1.2
      obtain ⟨p, hp, habs, hsign⟩ := ended ((h.le_of_roundsTo hround).trans_lt hn) hs.1.1
      rw [Option.bind_eq_bind, Option.bind_some, hp]
      simp only [fits_abs] at hs
      exact .rounded hs h habs hsign

end QuoteFeed.Decimal
