import QuoteFeed.Text.Numeral

/-!
# Numerals and their values

A number is the value of its digits, with any zeros before them (`Numeral.value_padded`), and only
the digits of zero start with one (`Numeral.head?_ofNat`).  A number that fits a width is padded to
exactly that width (`Numeral.length_padded`).  What is read as a bounded count is said apart from
its reader (`Numeral.unsigned?_eq_some_iff`).
-/

namespace QuoteFeed.Numeral

theorem value_padded (width n : Nat) :
  value (padded width n) = n
  := by
  change Nat.ofDigitChars 10 (List.replicate _ '0' ++ Nat.toDigits 10 n) 0 = n
  rw [Nat.ofDigitChars_append, Nat.ofDigitChars_replicate_zero, Nat.mul_zero,
    Nat.ofDigitChars_ten_toDigits]

/-- More digits lead to no smaller number. -/
theorem le_ofDigitChars (ds : List Char) (n : Nat) :
  n ≤ Nat.ofDigitChars 10 ds n
  := by
  rw [Nat.ofDigitChars_eq_ofDigitChars_zero]
  have : n ≤ 10 ^ ds.length * n := Nat.le_mul_of_pos_left n (Nat.pow_pos (by decide))
  omega

/-- The text is a count within a bound: digits, with a plus before them or without, of a number that
is not greater than the bound. -/
def IsCount (limit : Nat) (s : List Char) (n : Nat) : Prop :=
  ∃ ds, (s = ds ∨ s = '+' :: ds) ∧ ds ≠ [] ∧ (∀ c ∈ ds, c.isDigit = true) ∧
    Nat.ofDigitChars 10 ds 0 = n ∧ n ≤ limit

/-- The counts within a bound are read, and nothing else. -/
theorem unsigned?_eq_some_iff {limit : Nat} {s : List Char} {n : Nat} :
  unsigned? limit s = some n ↔ IsCount limit s n
  := by
  have hd (ds : List Char) : isDigits ds = true ↔ ds ≠ [] ∧ ∀ c ∈ ds, c.isDigit = true := by
    rw [isDigits, Bool.and_eq_true, Bool.not_eq_true', List.isEmpty_eq_false_iff, List.all_eq_true]
  have hv (ds : List Char) : value ds = Nat.ofDigitChars 10 ds 0 := rfl
  rw [unsigned?, Option.filter_eq_some_iff, decide_eq_true_eq, IsCount]
  constructor
  · rintro ⟨h, hn⟩
    rw [unbounded?.eq_def] at h
    split at h
    · rename_i ds
      split at h
      · rename_i hds
        obtain ⟨hne, hall⟩ := (hd ds).1 hds
        exact ⟨ds, Or.inr rfl, hne, hall, Option.some.inj h, hn⟩
      · cases h
    · split at h
      · rename_i hds
        obtain ⟨hne, hall⟩ := (hd s).1 hds
        exact ⟨s, Or.inl rfl, hne, hall, Option.some.inj h, hn⟩
      · cases h
  · rintro ⟨ds, rfl | rfl, hne, hall, rfl, hn⟩
    · refine ⟨?_, hn⟩
      rw [unbounded?.eq_def]
      split
      · have := hall '+' List.mem_cons_self
        contradiction
      · rw [if_pos ((hd s).2 ⟨hne, hall⟩), hv]
    · refine ⟨?_, hn⟩
      rw [unbounded?, if_pos ((hd ds).2 ⟨hne, hall⟩), hv]

theorem isDigit_of_mem_padded {width n : Nat} {c : Char} (h : c ∈ padded width n) :
  c.isDigit = true
  := by
  obtain h | h := List.mem_append.1 h
  · rw [List.eq_of_mem_replicate h]
    rfl
  · apply Nat.isDigit_of_mem_toDigits (by decide) (by decide) h

theorem le_length_padded (width n : Nat) :
  width ≤ (padded width n).length
  := by
  rw [padded, List.length_append, List.length_replicate]
  omega

/-- A number that fits the width is written in exactly so many digits. -/
theorem length_padded {width n : Nat} (hw : 0 < width) (h : n < Nat.pow 10 width) :
  (padded width n).length = width
  := by
  have hle : (ofNat n).length ≤ width := (Nat.length_toDigits_le_iff (by decide) hw).2 h
  rw [padded, List.length_append, List.length_replicate]
  omega

theorem isDigits_ofNat (n : Nat) :
  isDigits (ofNat n) = true
  := by
  rw [isDigits, Bool.and_eq_true, Bool.not_eq_true', List.isEmpty_eq_false_iff, List.all_eq_true]
  constructor
  · apply Nat.toDigits_ne_nil
  · intro c hc
    apply Nat.isDigit_of_mem_toDigits (by decide) (by decide) hc

/-- A number other than zero starts with no zero. -/
theorem head?_ofNat {n : Nat} (h : 0 < n) :
  (ofNat n).head? ≠ some '0'
  := by
  induction n using Nat.strongRecOn with
  | ind n ih =>
    rw [ofNat, Nat.toDigits_eq_if (by decide)]
    split
    · have small : ∀ m < 10, 0 < m → [m.digitChar].head? ≠ some '0' := by decide
      apply small n ‹_› h
    · have hd := ih (n / 10) (by omega) (by omega)
      obtain ⟨c, ds, e⟩ := List.exists_cons_of_ne_nil (Nat.toDigits_ne_nil (n := n / 10) (b := 10))
      rw [ofNat, e] at hd
      rw [e]
      apply hd

theorem isDigits_padded (width n : Nat) :
  isDigits (padded width n) = true
  := by
  rw [isDigits, Bool.and_eq_true, Bool.not_eq_true', List.isEmpty_eq_false_iff, List.all_eq_true]
  constructor
  · apply List.append_ne_nil_of_right_ne_nil _ Nat.toDigits_ne_nil
  · intro c hc
    apply isDigit_of_mem_padded hc

/-- A run of digits ends where the text does not go on with a digit. -/
theorem run_append {ds r : List Char} (h : isDigits ds) (hr : ∀ c ∈ r.head?, c.isDigit = false) :
  (ds ++ r).takeWhile Char.isDigit = ds ∧ (ds ++ r).dropWhile Char.isDigit = r
  := by
  simp only [isDigits, Bool.and_eq_true, List.all_eq_true] at h
  have ht : r.takeWhile Char.isDigit = [] ∧ r.dropWhile Char.isDigit = r := by
    cases r with
    | nil => exact ⟨rfl, rfl⟩
    | cons c r => simp [hr c rfl]
  rw [List.takeWhile_append_of_pos h.2, List.dropWhile_append_of_pos h.2, ht.1, ht.2,
    List.append_nil]
  exact ⟨rfl, rfl⟩

theorem ne_of_isDigit {c d : Char} (h : c.isDigit = true) (hd : d.isDigit = false) :
  c ≠ d
  := by
  rintro rfl
  rw [h] at hd
  contradiction

/-- What starts with digits starts with nothing else. -/
theorem append_ne_cons {ds r s : List Char} {c : Char} (h : isDigits ds) (hc : c.isDigit = false) :
  ds ++ r ≠ c :: s
  := by
  intro e
  cases ds with
  | nil => simp [isDigits] at h
  | cons d ds =>
    simp only [isDigits, Bool.and_eq_true, List.all_cons] at h
    apply ne_of_isDigit h.2.1 hc (List.cons.inj e).1

end QuoteFeed.Numeral
