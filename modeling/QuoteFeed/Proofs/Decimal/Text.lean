import Mathlib.Tactic.Use
import QuoteFeed.Decimal.Text
import QuoteFeed.Proofs.Text.Numeral

/-!
# The text of a decimal

A decimal is read back from its text (`Decimal.ofText?_text`), with all its places.  The exception
is a negative zero, whose sign is lost.
-/

namespace QuoteFeed.Decimal

/-- Digits are read onto the mantissa as long as it fits. -/
theorem scan?_digits (negative : Bool) {m scale : Nat} {point started : Bool} {ds : List Char}
    (hd : ∀ c ∈ ds, c.isDigit = true) (hm : Nat.ofDigitChars 10 ds m < mantissaBound)
    (hs : point = true → scale + ds.length ≤ maxScale) (rest : List Char) :
  scan? negative m scale point started (ds ++ rest) =
    scan? negative (Nat.ofDigitChars 10 ds m) (if point then scale + ds.length else scale) point
      (started || !ds.isEmpty) rest
  := by
  induction ds generalizing m scale started with
  | nil => simp
  | cons c ds ih =>
    rw [Nat.ofDigitChars_cons] at hm
    have hc : Numeral.digitValue c = c.toNat - '0'.toNat := rfl
    have hn : m * 10 + Numeral.digitValue c = 10 * m + (c.toNat - '0'.toNat) := by omega
    have hlt := Nat.lt_of_le_of_lt (Numeral.le_ofDigitChars ds _) hm
    have hfull : ((point && scale == maxScale) ||
        decide (m * 10 + Numeral.digitValue c ≥ mantissaBound)) = false := by
      cases point with
      | false => simp; omega
      | true =>
        have := hs rfl
        simp at this ⊢
        omega
    rw [List.cons_append, scan?, if_pos (hd c List.mem_cons_self)]
    dsimp only
    rw [hfull, if_neg Bool.false_ne_true, hn, ih (fun c' hc' => hd c' (List.mem_cons_of_mem _ hc')) hm]
    · cases point with
      | false => simp [Nat.ofDigitChars_cons]
      | true => simp [Nat.ofDigitChars_cons, Nat.add_assoc, Nat.add_comm 1]
    · rintro rfl
      have := hs rfl
      simp at this ⊢
      omega

/-- The digits of a decimal with their point are read as its mantissa and its scale. -/
theorem scan?_places (negative : Bool) {whole places : List Char}
    (hd : ∀ c ∈ whole ++ places, c.isDigit = true) (hne : whole ≠ [])
    (hm : Nat.ofDigitChars 10 (whole ++ places) 0 < mantissaBound)
    (hs : places.length ≤ maxScale) :
  scan? negative 0 0 false false (whole ++ (if places.length = 0 then [] else '.' :: places)) =
    ofParts? (negative && Nat.ofDigitChars 10 (whole ++ places) 0 != 0)
      (Nat.ofDigitChars 10 (whole ++ places) 0) places.length
  := by
  rw [List.forall_mem_append] at hd
  rw [Nat.ofDigitChars_append] at hm ⊢
  have hw := Nat.lt_of_le_of_lt (Numeral.le_ofDigitChars places _) hm
  rw [scan?_digits negative hd.1 hw (fun h => absurd h Bool.false_ne_true)]
  have hstarted : (false || !whole.isEmpty) = true := by simpa using hne
  rw [hstarted, if_neg Bool.false_ne_true]
  cases places with
  | nil => rfl
  | cons c places =>
    rw [if_neg (by simp), scan?, if_neg (by decide), if_pos (by decide),
      ← List.append_nil (c :: places), scan?_digits negative hd.2 hm]
    · simp [scan?]
    · intro _
      simpa using hs

/-- The digits before the point and after it. -/
theorem exists_places (d : Decimal) :
  ∃ whole places : List Char, (∀ c ∈ whole ++ places, c.isDigit = true) ∧ whole ≠ [] ∧
    Nat.ofDigitChars 10 (whole ++ places) 0 = d.mantissa ∧ places.length = d.scale ∧
    d.render = (if d.negative then ['-'] else []) ++
      (whole ++ if places.length = 0 then [] else '.' :: places)
  := by
  let ds := Numeral.padded (d.scale + 1) d.mantissa
  have hle : d.scale + 1 ≤ ds.length := Numeral.le_length_padded _ _
  have hds : ds.take (ds.length - d.scale) ++ ds.drop (ds.length - d.scale) = ds :=
    List.take_append_drop _ _
  have hlen : (ds.drop (ds.length - d.scale)).length = d.scale := by
    rw [List.length_drop]
    omega
  use ds.take (ds.length - d.scale), ds.drop (ds.length - d.scale)
  refine ⟨?_, ?_, ?_, hlen, ?_⟩
  · rw [hds]
    intro c hc
    apply Numeral.isDigit_of_mem_padded hc
  · rw [← List.length_pos_iff, List.length_take]
    omega
  · rw [hds]
    apply Numeral.value_padded
  · rw [hlen, render, List.append_assoc]

/-- A decimal is read back from its text, unless it is a negative zero. -/
theorem ofText?_text (d : Decimal) (h : d.negative = true → d.mantissa ≠ 0) :
  ofText? d.text.toList = some d
  := by
  obtain ⟨whole, places, hd, hne, hm, hs, hr⟩ := d.exists_places
  have hp (negative : Bool) := scan?_places negative hd hne (by rw [hm]; apply d.mantissa_lt)
    (by rw [hs]; apply d.scale_le)
  have hparse : parse? d.render = ofParts? d.negative d.mantissa d.scale := by
    rw [hm] at hp
    rw [hr]
    cases hn : d.negative with
    | true =>
      have hz : (d.mantissa != 0) = true := by simpa using h hn
      rw [if_pos rfl, List.singleton_append, parse?, hp, hs, hz, Bool.true_and]
    | false =>
      have hw : Numeral.isDigits whole := by
        rw [List.forall_mem_append] at hd
        simpa [Numeral.isDigits, hne] using hd.1
      rw [if_neg Bool.false_ne_true, List.nil_append, parse?, hp, hs, Bool.false_and]
      · intro s
        apply Numeral.append_ne_cons hw rfl
      · intro s
        apply Numeral.append_ne_cons hw rfl
  rw [ofText?, text, String.toList_ofList, hparse, ofParts?, dif_pos ⟨d.mantissa_lt, d.scale_le⟩]
  rfl

end QuoteFeed.Decimal
