import Mathlib.Data.List.Basic
import Mathlib.Data.List.Induction
import Mathlib.Tactic.Use

/-!
# What came after

A history is a list of what happened, the latest last.  `Since P l a` says that `a` happened and
that all that came after it satisfies `P`.  It is what a state that is followed along its history
depends on: the last that wrote to it, with nothing since that undid it.
-/

namespace QuoteFeed

variable {α : Type}

/-- Of what happened, `a` is followed by nothing but what satisfies `P`. -/
def Since (P : α → Prop) (l : List α) (a : α) : Prop :=
  ∃ earlier later, l = earlier ++ a :: later ∧ ∀ b ∈ later, P b

variable {P Q : α → Prop} {l : List α} {a b : α}

theorem not_since_nil :
  ¬ Since P [] a
  := by
  rintro ⟨earlier, later, h, -⟩
  simp at h

theorem since_concat :
  Since P (l ++ [b]) a ↔ b = a ∨ P b ∧ Since P l a
  := by
  constructor
  · rintro ⟨earlier, later, h, hP⟩
    obtain rfl | ⟨later, last, rfl⟩ := List.eq_nil_or_concat' later
    · left
      exact List.singleton_injective (List.append_inj' h rfl).2
    · right
      rw [← List.cons_append, ← List.append_assoc] at h
      obtain ⟨rfl, hlast⟩ := List.append_inj' h rfl
      obtain rfl := List.singleton_injective hlast
      exact ⟨hP b (by simp), earlier, later, rfl, fun c hc => hP c (by simp [hc])⟩
  · rintro (rfl | ⟨hb, earlier, later, rfl, hP⟩)
    · exact ⟨l, [], rfl, by simp⟩
    · refine ⟨earlier, later ++ [b], by simp, ?_⟩
      intro c hc
      obtain hc | hc := List.mem_append.1 hc
      · exact hP c hc
      · rwa [List.mem_singleton.1 hc]

theorem Since.imp (h : Since P l a) (himp : ∀ b ∈ l, P b → Q b) :
  Since Q l a
  := by
  obtain ⟨earlier, later, rfl, hP⟩ := h
  exact ⟨earlier, later, rfl, fun b hb => himp b (by simp [hb]) (hP b hb)⟩

theorem Since.mem (h : Since P l a) :
  a ∈ l
  := by
  obtain ⟨earlier, later, rfl, -⟩ := h
  simp

theorem Since.append_left (h : Since P l a) (before : List α) :
  Since P (before ++ l) a
  := by
  obtain ⟨earlier, later, rfl, hP⟩ := h
  exact ⟨before ++ earlier, later, (List.append_assoc _ _ _).symm, hP⟩

/-- What happened at some time happened a last time. -/
theorem exists_since_of_mem (ha : a ∈ l) (hP : P a) :
  ∃ b, P b ∧ Since (¬ P ·) l b
  := by
  induction l using List.reverseRecOn with
  | nil => cases ha
  | append_singleton l c ih =>
    by_cases hc : P c
    · exact ⟨c, hc, since_concat.2 (Or.inl rfl)⟩
    · obtain ha | ha := List.mem_append.1 ha
      · obtain ⟨b, hb, hs⟩ := ih ha
        exact ⟨b, hb, since_concat.2 (Or.inr ⟨hc, hs⟩)⟩
      · obtain rfl := List.mem_singleton.1 ha
        contradiction

end QuoteFeed
