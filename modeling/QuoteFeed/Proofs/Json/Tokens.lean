import Mathlib.Tactic.Use
import QuoteFeed.Proofs.Json.Grammar
import QuoteFeed.Proofs.Text.Numeral

/-!
# Reading strings and numbers

A string is read up to its closing quote, whichever way its characters are written
(`Json.readString?_of_written`).  A number is read up to what delimits it (`Json.Delimited`): the
end of the text, white space, a comma or a bracket (`Json.readNumber?_of_written`).
-/

namespace QuoteFeed.Json

/-! ### Strings -/

theorem hexValue?_eq {n : Nat} {c : Char} (h : IsHex n c) :
  hexValue? c = some n
  := by
  have lower : ∀ n < 16, "0123456789abcdef".toList[n]?.map hexValue? = some (some n) := by
    decide +kernel
  have upper : ∀ n < 16, "0123456789ABCDEF".toList[n]?.map hexValue? = some (some n) := by
    decide +kernel
  obtain h | h := h
  · obtain ⟨hn, -⟩ := List.getElem?_eq_some_iff.1 h
    have hv := lower n hn
    rw [h] at hv
    apply Option.some.inj hv
  · obtain ⟨hn, -⟩ := List.getElem?_eq_some_iff.1 h
    have hv := upper n hn
    rw [h] at hv
    apply Option.some.inj hv

theorem hexUnit?_eq {i j k l : Nat} {a b c d : Char} (ha : IsHex i a) (hb : IsHex j b)
    (hc : IsHex k c) (hd : IsHex l d) :
  hexUnit? a b c d = some (((i * 16 + j) * 16 + k) * 16 + l)
  := by
  rw [hexUnit?, hexValue?_eq ha, hexValue?_eq hb, hexValue?_eq hc, hexValue?_eq hd]
  rfl

theorem IsHex.lt {n : Nat} {c : Char} (h : IsHex n c) :
  n < 16
  := by
  obtain h | h := h
  · exact (List.getElem?_eq_some_iff.1 h).1
  · exact (List.getElem?_eq_some_iff.1 h).1

/-- A literal is read up to the closing quote. -/
theorem readPieces?_append {ps : List Piece} {t : List Char} (h : Literal ps t) (r : List Char) :
  readPieces? (t ++ '"' :: r) = some (ps, r)
  := by
  induction h with
  | nil => rfl
  | @plain c ps s hq hb hc h ih =>
    rw [List.cons_append, readPieces?]
    · simp [ih, hb, hc]
    · exact fun e => hq e
    · intro a b c' d r' e
      exact absurd e hb
    · intro e r' h'
      exact absurd h' hb
  | @short e c ps s he h ih =>
    have hu : e ≠ 'u' := by
      rintro rfl
      revert he
      simp [shortEscapes]
    have hc : ∀ x ∈ shortEscapes, escaped? x.1 = some x.2 := by decide +kernel
    rw [List.cons_append, List.cons_append, readPieces?]
    · simp [ih, hc _ he]
    · intro a b c d r' h
      exact absurd h hu
  | unit ha hb hc hd h ih =>
    simp only [List.cons_append, readPieces?, hexUnit?_eq ha hb hc hd, ih]
    rfl

/-- A character is no surrogate. -/
theorem not_surrogate (c : Char) :
  isHigh c.toNat = false ∧ isLow c.toNat = false
  := by
  have h := c.valid
  simp only [isHigh, isLow, Bool.and_eq_false_iff, decide_eq_false_iff_not]
  change c.toNat < 0xD800 ∨ 0xDFFF < c.toNat ∧ c.toNat < 0x110000 at h
  omega

theorem assemble?_of_spells {ps : List Piece} {cs : List Char} (h : Spells ps cs) :
  assemble? ps = some cs
  := by
  induction h with
  | nil => rfl
  | char c h ih => simp [assemble?, ih]
  | unit c h ih =>
    obtain ⟨hh, hl⟩ := not_surrogate c
    rw [assemble?.eq_def]
    simp [hh, hl, ih, Char.ofNat_toNat]
  | pair hn hm hc h ih =>
    rw [assemble?.eq_def]
    simp [hn, hm, ih, ← hc, Char.ofNat_toNat]

theorem toNat_ofNat {n : Nat} (h : n < 0xD800 ∨ 0xDFFF < n ∧ n < 0x110000) :
  (Char.ofNat n).toNat = n
  := by
  rw [Char.ofNat, dif_pos h]
  rfl

theorem Literal.unit_lt {ps : List Piece} {t : List Char} (h : Literal ps t) {n : Nat}
    (hn : .unit n ∈ ps) :
  n < 0x10000
  := by
  induction h with
  | nil => exact nomatch hn
  | plain hq hb hc h ih => apply ih (by simpa using hn)
  | short he h ih => apply ih (by simpa using hn)
  | unit ha hb hc hd h ih =>
    obtain hn | hn := List.mem_cons.1 hn
    · obtain rfl := Piece.unit.inj hn
      have := ha.lt
      have := hb.lt
      have := hc.lt
      have := hd.lt
      omega
    · apply ih hn

/-- Code units that can be put together spell a text. -/
theorem spells_of_assemble? {ps : List Piece} {cs : List Char}
    (hu : ∀ n, .unit n ∈ ps → n < 0x10000) (h : assemble? ps = some cs) :
  Spells ps cs
  := by
  induction ps using assemble?.induct generalizing cs with
  | case1 =>
    obtain rfl := Option.some.inj h
    exact .nil
  | case2 c ps ih =>
    rw [assemble?, Option.map_eq_some_iff] at h
    obtain ⟨cs, h, rfl⟩ := h
    apply Spells.char
    apply ih _ h
    intro n hn
    apply hu n (List.mem_cons_of_mem _ hn)
  | case3 n hh m ps hl ih =>
    rw [assemble?.eq_def] at h
    simp only [hh, hl, if_true, Option.map_eq_some_iff] at h
    obtain ⟨cs, h, rfl⟩ := h
    refine Spells.pair hh hl ?_ (ih ?_ h)
    · have hn := hu n (by simp)
      have hm := hu m (by simp)
      simp only [isHigh, isLow, Bool.and_eq_true, decide_eq_true_eq] at hh hl
      apply toNat_ofNat
      omega
    · intro k hk
      apply hu k (by simp [hk])
  | case4 n hh m ps hl =>
    rw [assemble?.eq_def] at h
    simp [hh, hl] at h
  | case5 n ps hh hps =>
    rw [assemble?.eq_def] at h
    simp [hh] at h
  | case6 n ps hh hl =>
    rw [assemble?.eq_def] at h
    simp [hh, hl] at h
  | case7 n ps hh hl ih =>
    rw [assemble?.eq_def] at h
    simp only [hh, hl, Bool.false_eq_true, if_false, Option.map_eq_some_iff] at h
    obtain ⟨cs, h, rfl⟩ := h
    have hn : (Char.ofNat n).toNat = n := by
      have hn := hu n (by simp)
      simp only [isHigh, isLow, Bool.and_eq_true, decide_eq_true_eq] at hh hl
      apply toNat_ofNat
      omega
    rw [← hn, Char.ofNat_toNat]
    apply Spells.unit
    apply ih _ h
    intro k hk
    apply hu k (by simp [hk])

/-- A string is read from its opening quote on. -/
theorem readString?_of_written {s : Option String} {t : List Char} (h : WrittenString s t)
    (r : List Char) :
  ∃ u, t ++ r = '"' :: u ∧ readString? u = some (s, r)
  := by
  cases h with
  | @text s ps t ht hs =>
    use t ++ '"' :: r
    constructor
    · simp
    · rw [readString?, readPieces?_append ht]
      simp [assemble?_of_spells hs]
  | @ragged ps t ht hs =>
    use t ++ '"' :: r
    constructor
    · simp
    · rw [readString?, readPieces?_append ht]
      have hn : assemble? ps = none := by
        cases ha : assemble? ps with
        | none => rfl
        | some cs => apply absurd (spells_of_assemble? (fun n hn => ht.unit_lt hn) ha) (hs cs)
      simp [hn]

/-! ### Numbers -/

/-- The text is at its end, or goes on with white space, a comma or a closing bracket. -/
def Delimited (r : List Char) : Prop :=
  ∀ c ∈ r.head?, isSpace c = true ∨ c = ',' ∨ c = ']' ∨ c = '}'

/-- The text does not go on with a digit. -/
def EndsDigits (r : List Char) : Prop :=
  ∀ c ∈ r.head?, c.isDigit = false

/-- What delimits a value continues no number. -/
theorem Delimited.ne {c : Char} {r : List Char} (h : Delimited (c :: r)) :
  c.isDigit = false ∧ c ≠ '.' ∧ c ≠ 'e' ∧ c ≠ 'E'
  := by
  obtain h | rfl | rfl | rfl := h c rfl
  · simp only [isSpace, Bool.or_eq_true, beq_iff_eq] at h
    obtain ((rfl | rfl) | rfl) | rfl := h
    · decide
    · decide
    · decide
    · decide
  · decide
  · decide
  · decide

theorem Delimited.endsDigits {r : List Char} (h : Delimited r) :
  EndsDigits r
  := by
  cases r with
  | nil => exact fun _ hc => nomatch hc
  | cons c r =>
    intro c' hc
    obtain rfl := Option.some.inj hc
    apply h.ne.1

theorem endsDigits_cons {c : Char} (r : List Char) (h : c.isDigit = false) :
  EndsDigits (c :: r)
  := by
  intro c' hc
  obtain rfl := Option.some.inj hc
  apply h

theorem readDigits?_append {ds r : List Char} (h : Numeral.isDigits ds) (hr : EndsDigits r) :
  readDigits? (ds ++ r) = some (ds, r)
  := by
  obtain ⟨hds, hrest⟩ := Numeral.run_append h hr
  simp only [Numeral.isDigits, Bool.and_eq_true, Bool.not_eq_true'] at h
  rw [readDigits?, hds, hrest]
  simp [h.1]

theorem readWhole?_append {ds r : List Char} (h : IsWhole ds) (hr : EndsDigits r) :
  readWhole? (ds ++ r) = some (ds, r)
  := by
  obtain rfl | ⟨h, hz⟩ := h
  · cases r with
    | nil => rfl
    | cons c r => simp [readWhole?, hr c rfl]
  · rw [readWhole?]
    · apply readDigits?_append h hr
    · intro c s e
      cases ds with
      | nil => simp [Numeral.isDigits] at h
      | cons d ds =>
        obtain ⟨rfl, -⟩ := List.cons.inj e
        apply hz rfl

theorem readFraction?_append {ds f r : List Char} (h : WrittenFraction ds f) (hr : EndsDigits r)
    (hp : r.head? ≠ some '.') :
  readFraction? (f ++ r) = some (ds, r)
  := by
  cases h with
  | absent =>
    rw [List.nil_append, readFraction?]
    rintro s rfl
    apply hp rfl
  | digits h => apply readDigits?_append h hr

theorem readExponentDigits?_append {ds r : List Char} (negative : Bool) (h : Numeral.isDigits ds)
    (hr : EndsDigits r) :
  readExponentDigits? negative (ds ++ r) = some (some ⟨negative, ds⟩, r)
  := by
  rw [readExponentDigits?, readDigits?_append h hr]
  rfl

theorem readExponent?_append {x : Option Exponent} {e r : List Char} (h : WrittenExponent x e)
    (hr : Delimited r) :
  readExponent? (e ++ r) = some (x, r)
  := by
  have marked {mark : Char} (s : List Char) (hm : mark = 'e' ∨ mark = 'E') :
      readExponent? (mark :: s) = readSignedExponent? s := by
    obtain rfl | rfl := hm
    · rfl
    · rfl
  cases h with
  | absent =>
    cases r with
    | nil => rfl
    | cons c r =>
      rw [List.nil_append, readExponent?]
      · rintro s h
        apply hr.ne.2.2.1 (List.cons.inj h).1
      · rintro s h
        apply hr.ne.2.2.2 (List.cons.inj h).1
  | digits hm h =>
    rw [List.cons_append, marked _ hm, readSignedExponent?]
    · apply readExponentDigits?_append false h hr.endsDigits
    · intro s
      apply Numeral.append_ne_cons h rfl
    · intro s
      apply Numeral.append_ne_cons h rfl
  | plus hm h =>
    rw [List.cons_append, marked _ hm]
    apply readExponentDigits?_append false h hr.endsDigits
  | minus hm h =>
    rw [List.cons_append, marked _ hm]
    apply readExponentDigits?_append true h hr.endsDigits

theorem IsWhole.isDigits {ds : List Char} (h : IsWhole ds) :
  Numeral.isDigits ds
  := by
  obtain rfl | ⟨h, -⟩ := h
  · rfl
  · apply h

/-- An exponent, or what follows where there is none, continues no fraction. -/
theorem endsFraction_append {x : Option Exponent} {e r : List Char} (h : WrittenExponent x e)
    (hr : Delimited r) :
  EndsDigits (e ++ r) ∧ (e ++ r).head? ≠ some '.'
  := by
  have marked {mark : Char} (s : List Char) (hm : mark = 'e' ∨ mark = 'E') :
      EndsDigits (mark :: s) ∧ (mark :: s).head? ≠ some '.' := by
    obtain rfl | rfl := hm
    · exact ⟨endsDigits_cons _ rfl, by simp⟩
    · exact ⟨endsDigits_cons _ rfl, by simp⟩
  cases h with
  | absent =>
    use hr.endsDigits
    cases r with
    | nil => simp
    | cons c r => simpa using hr.ne.2.1
  | digits hm h => apply marked _ hm
  | plus hm h => apply marked _ hm
  | minus hm h => apply marked _ hm

/-- A number is read as far as it is written. -/
theorem readNumber?_of_written {n : Number} {t r : List Char} (h : WrittenNumber n t)
    (hr : Delimited r) :
  readNumber? (t ++ r) = some (n, r)
  := by
  obtain ⟨negative, hw, hf, he⟩ := h
  rename_i whole fraction f e exponent
  have unsigned : readUnsigned? negative (whole ++ (f ++ (e ++ r))) =
      some (⟨negative, whole, fraction, exponent⟩, r) := by
    obtain ⟨hd, hp⟩ := endsFraction_append he hr
    have hf' : EndsDigits (f ++ (e ++ r)) := by
      cases hf with
      | absent => apply hd
      | digits h => apply endsDigits_cons _ rfl
    simp only [readUnsigned?, readWhole?_append hw hf', Option.bind_eq_bind, Option.bind_some,
      readFraction?_append hf hd hp, readExponent?_append he hr]
    rfl
  cases negative with
  | true =>
    rw [if_pos rfl, List.append_assoc, List.append_assoc, List.append_assoc]
    apply unsigned
  | false =>
    rw [if_neg Bool.false_ne_true, List.nil_append, List.append_assoc, List.append_assoc,
      readNumber?]
    · apply unsigned
    · intro s
      apply Numeral.append_ne_cons hw.isDigits rfl

end QuoteFeed.Json
