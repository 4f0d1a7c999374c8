import Mathlib.Data.List.TakeWhile
import QuoteFeed.Settings

/-!
# Parts of a text

The parts of a text between the occurrences of a mark are the one list of texts without the mark
that make up the text when the mark is written between them (`splitAtMark_eq_iff`).  A text is split
in two at its first mark (`split_first_iff`).
-/

namespace QuoteFeed

/-- The parts of a text between marks. -/
theorem splitAtMark_eq (mark : Char) (s : List Char) :
  splitAtMark mark s = s.splitOn mark
  := by
  induction s with
  | nil => rfl
  | cons c s ih =>
    rw [splitAtMark, List.splitOn_eq_splitOnP, List.splitOnP_cons_eq_if_modifyHead,
      ← List.splitOn_eq_splitOnP, ih]
    by_cases h : c = mark
    · simp [h]
    · simp only [if_neg h, beq_iff_eq]
      cases hp : s.splitOn mark with
      | nil => apply absurd hp (List.splitOn_ne_nil mark s)
      | cons part parts => rfl

theorem not_mem_of_mem_splitAtMark {mark : Char} {s part : List Char}
    (h : part ∈ splitAtMark mark s) :
  mark ∉ part
  := by
  induction s generalizing part with
  | nil =>
    rw [splitAtMark, List.mem_singleton] at h
    rw [h]
    exact List.not_mem_nil
  | cons c s ih =>
    rw [splitAtMark] at h
    by_cases hc : c = mark
    · rw [if_pos hc, List.mem_cons] at h
      obtain rfl | h := h
      · exact List.not_mem_nil
      · exact ih h
    · have hcons : ∀ part, mark ∉ part → mark ∉ c :: part := by
        intro part hp hm
        obtain rfl | hm := List.mem_cons.1 hm
        · exact hc rfl
        · exact hp hm
      rw [if_neg hc] at h
      cases hs : splitAtMark mark s with
      | nil =>
        rw [hs, List.mem_singleton] at h
        rw [h]
        exact hcons [] List.not_mem_nil
      | cons first parts =>
        rw [hs] at ih h
        obtain rfl | h := List.mem_cons.1 h
        · exact hcons first (ih List.mem_cons_self)
        · exact ih (List.mem_cons_of_mem first h)

/-- The text consists of the parts, of which there is one at least, with the mark between them and
nowhere else. -/
structure IsParted (mark : Char) (s : List Char) (parts : List (List Char)) : Prop where
  eq_intercalate : s = [mark].intercalate parts
  ne_nil : parts ≠ []
  not_mem : ∀ part ∈ parts, mark ∉ part

theorem splitAtMark_eq_iff {mark : Char} {s : List Char} {parts : List (List Char)} :
  splitAtMark mark s = parts ↔ IsParted mark s parts
  := by
  rw [splitAtMark_eq]
  constructor
  · rintro rfl
    refine ⟨(List.intercalate_splitOn mark).symm, List.splitOn_ne_nil mark s, ?_⟩
    intro part hpart
    rw [← splitAtMark_eq] at hpart
    exact not_mem_of_mem_splitAtMark hpart
  · rintro ⟨rfl, hne, hnot⟩
    apply List.splitOn_intercalate mark hnot hne

/-! ### The first mark -/

/-- A text is split at its first mark, if it has one. -/
theorem split_first_iff {mark : Char} {s before after : List Char} :
  (s.takeWhile (· ≠ mark) = before ∧ ∃ c, s.dropWhile (· ≠ mark) = c :: after) ↔
    s = before ++ mark :: after ∧ mark ∉ before
  := by
  constructor
  · rintro ⟨rfl, c, hd⟩
    have hc : c = mark := by
      have hhead := List.head?_dropWhile_not (· ≠ mark) s
      rw [hd] at hhead
      simpa using hhead
    rw [hc] at hd
    constructor
    · rw [← hd, List.takeWhile_append_dropWhile]
    · intro hm
      simpa using List.mem_takeWhile_imp hm
  · rintro ⟨rfl, hm⟩
    have hpos : ∀ c ∈ before, decide (c ≠ mark) = true := by
      intro c hc
      rw [decide_eq_true_eq]
      rintro rfl
      exact hm hc
    rw [List.takeWhile_append_of_pos hpos, List.dropWhile_append_of_pos hpos]
    simp

end QuoteFeed
