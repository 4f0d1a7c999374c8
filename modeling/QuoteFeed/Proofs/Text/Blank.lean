import Mathlib.Data.List.DropRight
import QuoteFeed.Text.Blank

/-!
# Trimming

What stands between the blanks at the two ends of a text is kept as it is
(`Text.trimChars_append`).  A trimmed text ends with no blank, and a text that goes on with more than
blanks keeps what stands before them (`Text.trimEndChars_append`).
-/

namespace QuoteFeed.Text

variable {before s r : List Char} {c : Char}

theorem trimStartChars_cons {c : Char} (s : List Char) (h : isBlank c = false) :
  trimStartChars (c :: s) = c :: s
  := List.dropWhile_cons_of_neg (by simp [h])

/-- Blanks at the start are dropped. -/
theorem trimChars_append_cons (hb : ∀ x ∈ before, isBlank x = true) (hc : isBlank c = false)
    (s : List Char) :
  trimChars (before ++ c :: s) = trimEndChars (c :: s)
  := by
  rw [trimChars, trimStartChars, List.dropWhile_append_of_pos hb]
  congr 1
  apply trimStartChars_cons s hc

/-- Blanks at the two ends are trimmed, up to characters that are not blank. -/
theorem trimChars_append {before after s : List Char} {c d : Char}
    (hb : ∀ x ∈ before, isBlank x = true) (ha : ∀ x ∈ after, isBlank x = true)
    (hc : isBlank c = false) (hd : isBlank d = false) :
  trimChars (before ++ ((c :: (s ++ [d])) ++ after)) = c :: (s ++ [d])
  := by
  have he : (c :: (s ++ d :: after)).reverse = after.reverse ++ d :: (s.reverse ++ [c]) := by
    simp
  rw [List.cons_append, List.append_assoc, List.singleton_append, trimChars_append_cons hb hc,
    trimEndChars, he, List.dropWhile_append_of_pos (by simpa using ha),
    List.dropWhile_cons_of_neg (by simp [hd])]
  simp

/-! ### The end of a text -/

theorem trimEndChars_isPrefix (s : List Char) :
  trimEndChars s <+: s
  := List.rdropWhile_prefix isBlank s

theorem trimEndChars_eq_nil_iff :
  trimEndChars s = [] ↔ ∀ x ∈ s, isBlank x = true
  := List.rdropWhile_eq_nil_iff

/-- A trimmed text ends with no blank. -/
theorem isBlank_of_mem_getLast? (h : c ∈ (trimEndChars s).getLast?) :
  isBlank c = false
  := by
  obtain ⟨hne, rfl⟩ := List.mem_getLast?_eq_getLast h
  apply eq_false_of_ne_true
  apply List.rdropWhile_last_not isBlank s hne

/-- What stands before more than blanks is kept. -/
theorem trimEndChars_append (s : List Char) (h : trimEndChars r ≠ []) :
  trimEndChars (s ++ r) = s ++ trimEndChars r
  := by
  have hr : (r.reverse.dropWhile isBlank).isEmpty = false := by
    simpa [trimEndChars, List.isEmpty_eq_false_iff] using h
  rw [trimEndChars, List.reverse_append, List.dropWhile_append, hr, if_neg Bool.false_ne_true,
    List.reverse_append, List.reverse_reverse]
  rfl

/-- A character that is no blank is kept. -/
theorem exists_trimEndChars_cons (hc : isBlank c = false) (s : List Char) :
  ∃ u, trimEndChars (c :: s) = c :: u
  := by
  obtain ⟨r, hr⟩ := trimEndChars_isPrefix (c :: s)
  cases ht : trimEndChars (c :: s) with
  | nil =>
    rw [trimEndChars_eq_nil_iff.1 ht c List.mem_cons_self] at hc
    cases hc
  | cons d u =>
    rw [ht] at hr
    obtain ⟨rfl, -⟩ := List.cons.inj hr
    use u

/-- Of blanks nothing is left, and of no other text. -/
theorem trimChars_eq_nil_iff :
  trimChars s = [] ↔ ∀ x ∈ s, isBlank x = true
  := by
  rw [trimChars, trimEndChars_eq_nil_iff, trimStartChars]
  constructor
  · intro h x hx
    rw [← List.takeWhile_append_dropWhile (p := isBlank) (l := s), List.mem_append] at hx
    obtain hx | hx := hx
    · apply List.mem_takeWhile_imp hx
    · apply h x hx
  · intro h x hx
    apply h x ((List.dropWhile_sublist _).mem hx)

theorem isEmpty_trim (v : String) :
  (trim v).isEmpty = isBlankText v
  := by
  change (String.ofList (trimChars v.toList)).isEmpty = v.toList.all isBlank
  rw [Bool.eq_iff_iff, String.isEmpty_iff, String.ofList_eq_empty_iff, trimChars_eq_nil_iff,
    List.all_eq_true]

/-- A text is what is left when it is trimmed, between blanks. -/
theorem exists_trimChars (s : List Char) :
  ∃ before after, (∀ x ∈ before, isBlank x = true) ∧ (∀ x ∈ after, isBlank x = true) ∧
    s = before ++ (trimChars s ++ after)
  := by
  refine ⟨s.takeWhile isBlank, (trimStartChars s).rtakeWhile isBlank,
    fun x => List.mem_takeWhile_imp, fun x => List.mem_rtakeWhile_imp, ?_⟩
  have h : trimChars s ++ (trimStartChars s).rtakeWhile isBlank = trimStartChars s :=
    List.rdropWhile_append_rtakeWhile
  rw [h]
  exact List.takeWhile_append_dropWhile.symm

end QuoteFeed.Text
