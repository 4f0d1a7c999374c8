import Mathlib.Data.List.Forall2
import QuoteFeed.Text.Letter

/-!
# Texts up to the case of letters

Two texts are the same up to the case of the letters `A` to `Z` exactly if they are so character by
character (`Text.sameLetters_iff`), and exactly if they have the same upper case
(`Text.upperCase_eq_iff`).
-/

namespace QuoteFeed.Text

/-- A letter `A` to `Z` and its small letter. -/
def IsCasePair (c d : Char) : Prop :=
  'A'.toNat ≤ c.toNat ∧ c.toNat ≤ 'Z'.toNat ∧ d.toNat = c.toNat + 32

/-- The characters are equal or a letter `A` to `Z` in its two cases. -/
def SameLetter (c d : Char) : Prop :=
  c = d ∨ IsCasePair c d ∨ IsCasePair d c

theorem toNat_toLower (c : Char) :
  c.toLower.toNat =
    if 'A'.toNat ≤ c.toNat ∧ c.toNat ≤ 'Z'.toNat then c.toNat + 32 else c.toNat
  := by
  have hle (a b : Char) : a.val ≤ b.val ↔ a.toNat ≤ b.toNat := UInt32.le_iff_toNat_le
  by_cases h : 'A'.val ≤ c.val ∧ c.val ≤ 'Z'.val
  · have hl : c.toLower.val = c.val + ('a'.val - 'A'.val) := congrArg Char.val (dif_pos h)
    rw [hle, hle] at h
    have hZ : 'Z'.toNat = 90 := rfl
    rw [if_pos h]
    change c.toLower.val.toNat = c.toNat + 32
    rw [hl, UInt32.toNat_add]
    apply Nat.mod_eq_of_lt
    change c.toNat + 32 < 2 ^ 32
    omega
  · have hl : c.toLower = c := dif_neg h
    rw [hle, hle] at h
    rw [if_neg h, hl]

theorem toLower_eq_iff {c d : Char} :
  c.toLower = d.toLower ↔ SameLetter c d
  := by
  have hA : 'A'.toNat = 65 := rfl
  have hZ : 'Z'.toNat = 90 := rfl
  rw [← Char.toNat_inj, toNat_toLower, toNat_toLower, SameLetter, IsCasePair, IsCasePair,
    ← Char.toNat_inj, hA, hZ]
  split
  · split
    · omega
    · omega
  · split
    · omega
    · omega

theorem toNat_toUpper (c : Char) :
  c.toUpper.toNat =
    if 'a'.toNat ≤ c.toNat ∧ c.toNat ≤ 'z'.toNat then c.toNat - 32 else c.toNat
  := by
  have hle (a b : Char) : a.val ≤ b.val ↔ a.toNat ≤ b.toNat := UInt32.le_iff_toNat_le
  by_cases h : 'a'.val ≤ c.val ∧ c.val ≤ 'z'.val
  · have hu : c.toUpper = ⟨c.val + ('A'.val - 'a'.val), _⟩ := dif_pos h
    rw [hle, hle] at h
    have ha : 'a'.toNat = 97 := rfl
    have hz : 'z'.toNat = 122 := rfl
    have hd : ('A'.val - 'a'.val).toNat = 4294967264 := by decide
    rw [if_pos h]
    rw [hu]
    change (c.val + ('A'.val - 'a'.val)).toNat = c.toNat - 32
    rw [UInt32.toNat_add, hd]
    change (c.toNat + 4294967264) % 2 ^ 32 = c.toNat - 32
    omega
  · have hu : c.toUpper = c := dif_neg h
    rw [hle, hle] at h
    rw [if_neg h, hu]

theorem toUpper_eq_iff {c d : Char} :
  c.toUpper = d.toUpper ↔ SameLetter c d
  := by
  have hA : 'A'.toNat = 65 := rfl
  have hZ : 'Z'.toNat = 90 := rfl
  have ha : 'a'.toNat = 97 := rfl
  have hz : 'z'.toNat = 122 := rfl
  rw [← Char.toNat_inj, toNat_toUpper, toNat_toUpper, SameLetter, IsCasePair, IsCasePair,
    ← Char.toNat_inj, hA, hZ, ha, hz]
  split
  · split
    · omega
    · omega
  · split
    · omega
    · omega

/-- The texts have the same upper case exactly if they are of the same letters. -/
theorem upperCase_eq_iff {s t : String} :
  upperCase s = upperCase t ↔ List.Forall₂ SameLetter s.toList t.toList
  := by
  rw [upperCase, upperCase, String.ofList_inj, ← List.forall₂_eq_eq_eq, List.forall₂_map_left_iff,
    List.forall₂_map_right_iff]
  simp only [toUpper_eq_iff]

/-- The texts are of the same letters, character by character. -/
theorem sameLetters_iff {s t : String} :
  sameLetters s t = true ↔ List.Forall₂ SameLetter s.toList t.toList
  := by
  rw [sameLetters, beq_iff_eq, ← List.forall₂_eq_eq_eq, List.forall₂_map_left_iff,
    List.forall₂_map_right_iff]
  simp only [toLower_eq_iff]

end QuoteFeed.Text
