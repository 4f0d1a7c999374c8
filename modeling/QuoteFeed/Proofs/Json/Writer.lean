import QuoteFeed.Json.Writer
import QuoteFeed.Proofs.Json.Reader

/-!
# Writing values

The text of a value is one of the texts that write it (`Json.written_render`), and so it is read
back as that value (`Json.read?_render`).  This holds for values whose strings are texts and whose
numbers have their digits (`Json.Value.IsWritable`).
-/

namespace QuoteFeed.Json

/-! ### Strings -/

theorem isHex_hexDigit {n : Nat} (h : n < 16) :
  IsHex n (hexDigit n)
  := by
  have digits : ∀ n < 16, "0123456789abcdef".toList[n]? = some (hexDigit n) := by decide +kernel
  left
  apply digits n h

/-- The piece that a character is written as. -/
def pieceOf (c : Char) : Piece :=
  if c.toNat < 0x20 ∧ c ∉ shortEscapes.map (·.2) then .unit c.toNat else .char c

theorem spells_pieceOf (s : List Char) :
  Spells (s.map pieceOf) s
  := by
  induction s with
  | nil => exact .nil
  | cons c s ih =>
    rw [List.map_cons, pieceOf]
    split
    · apply Spells.unit c ih
    · apply Spells.char c ih

theorem literal_unitEscape {n : Nat} (hn : n < 0x10000) {ps : List Piece} {t : List Char}
    (h : Literal ps t) :
  Literal (.unit n :: ps) (unitEscape n ++ t)
  := by
  have e : ((n / 4096 % 16 * 16 + n / 256 % 16) * 16 + n / 16 % 16) * 16 + n % 16 = n := by omega
  have hu := Literal.unit (isHex_hexDigit (n := n / 4096 % 16) (by omega))
    (isHex_hexDigit (n := n / 256 % 16) (by omega)) (isHex_hexDigit (n := n / 16 % 16) (by omega))
    (isHex_hexDigit (n := n % 16) (by omega)) h
  rw [e] at hu
  apply hu

/-- The escapes of characters are a literal. -/
theorem literal_escape (s : List Char) :
  Literal (s.map pieceOf) (s.flatMap escape)
  := by
  induction s with
  | nil => exact .nil
  | cons c s ih =>
    have short {e : Char} (he : (e, c) ∈ shortEscapes) :
        Literal (pieceOf c :: s.map pieceOf) ('\\' :: e :: s.flatMap escape) := by
      have hm : c ∈ shortEscapes.map (·.2) := List.mem_map_of_mem he
      rw [pieceOf, if_neg (fun h => h.2 hm)]
      apply Literal.short he ih
    have control (hc : c.toNat < 0x20) (hm : c ∉ shortEscapes.map (·.2)) :
        Literal (pieceOf c :: s.map pieceOf) (unitEscape c.toNat ++ s.flatMap escape) := by
      rw [pieceOf, if_pos ⟨hc, hm⟩]
      apply literal_unitEscape (by omega) ih
    have plain (hq : c ≠ '"') (hb : c ≠ '\\') (hc : ¬ c.toNat < 0x20) :
        Literal (pieceOf c :: s.map pieceOf) (c :: s.flatMap escape) := by
      rw [pieceOf, if_neg (fun h => hc h.1)]
      apply Literal.plain hq hb (by omega) ih
    rw [List.map_cons, List.flatMap_cons, escape]
    split
    · subst_vars; exact short (by decide)
    split
    · subst_vars; exact short (by decide)
    split
    · subst_vars; exact short (by decide)
    split
    · subst_vars; exact short (by decide)
    split
    · subst_vars; exact short (by decide)
    split
    · subst_vars; exact short (by decide)
    split
    · subst_vars; exact short (by decide)
    split
    · rename_i hc
      apply control hc
      have hs : c ≠ '/' := by
        rintro rfl
        revert hc
        decide
      simp_all [shortEscapes]
    · apply plain
      · assumption
      · assumption
      · assumption

theorem written_renderString (s : String) :
  WrittenString (some s) (renderString s.toList)
  := by
  apply WrittenString.text (literal_escape _) (spells_pieceOf _)

/-! ### Values -/

/-- The value can be written: its strings are texts, and its numbers have their digits. -/
inductive Value.IsWritable : Value → Prop where
  | null : IsWritable .null
  | bool (b : Bool) : IsWritable (.bool b)
  | number {n : Number} (hw : IsWhole n.whole)
      (hf : n.fraction = [] ∨ Numeral.isDigits n.fraction)
      (he : ∀ x, n.exponent = some x → Numeral.isDigits x.digits) :
    IsWritable (.number n)
  | text (s : String) : IsWritable (.text s)
  | array {vs : List Value} (h : ∀ v ∈ vs, IsWritable v) : IsWritable (.array vs)
  | record {ms : List (String × Value)} (h : ∀ m ∈ ms, IsWritable m.2) : IsWritable (.record ms)

theorem written_renderNumber {n : Number} (hw : IsWhole n.whole)
    (hf : n.fraction = [] ∨ Numeral.isDigits n.fraction)
    (he : ∀ x, n.exponent = some x → Numeral.isDigits x.digits) :
  WrittenNumber n (renderNumber n)
  := by
  obtain ⟨negative, whole, fraction, exponent⟩ := n
  have hfraction : WrittenFraction fraction
      (if fraction.isEmpty then [] else '.' :: fraction) := by
    cases fraction with
    | nil => exact .absent
    | cons c ds => exact .digits (hf.resolve_left (by simp))
  have hexponent : WrittenExponent exponent ((exponent.map renderExponent).getD []) := by
    cases exponent with
    | none => exact .absent
    | some x =>
      have hx := he x rfl
      obtain ⟨sign, ds⟩ := x
      cases sign with
      | true => exact .minus (Or.inl rfl) hx
      | false => exact .digits (Or.inl rfl) hx
  have h := WrittenNumber.parts negative hw hfraction hexponent
  rw [renderNumber, List.append_assoc, List.append_assoc]
  apply h

theorem renderItems_eq (vs : List Value) :
  renderItems vs = withCommas (vs.map (·.render))
  := by
  induction vs with
  | nil => rfl
  | cons v vs ih =>
    cases vs with
    | nil => simp [renderItems]
    | cons v' vs => simpa [renderItems] using ih

theorem renderMembers_eq (ms : List (String × Value)) :
  renderMembers (ms.map fun m => (some m.1, m.2)) =
    withCommas (ms.map fun m => renderString m.1.toList ++ ':' :: m.2.render)
  := by
  induction ms with
  | nil => rfl
  | cons m ms ih =>
    cases ms with
    | nil => simp [renderMembers, renderKey]
    | cons m' ms => simpa [renderMembers, renderKey] using ih

/-- The text of a value is one of the texts that write it. -/
theorem written_render {v : Value} (h : v.IsWritable) :
  Written v v.render
  := by
  induction h with
  | null => exact .null
  | bool b =>
    cases b with
    | true => exact .true
    | false => exact .false
  | number hw hf he => exact .number (written_renderNumber hw hf he)
  | text s => exact .string (written_renderString s)
  | @array vs h ih =>
    rw [Value.render, renderItems_eq]
    cases vs with
    | nil => exact .emptyArray isSpace_nil
    | cons v vs =>
      let item (v : Value) : Item := ⟨v, v.render, [], []⟩
      have hv : ((v :: vs).map item).map (·.value) = v :: vs := by
        rw [List.map_map]
        apply List.map_id
      have hp : ((v :: vs).map item).map (·.padded) = (v :: vs).map (·.render) := by
        simp [item, Item.padded]
      rw [← hp]
      nth_rewrite 1 [← hv]
      apply Written.array
      · simp
      · intro i hi
        obtain ⟨v, -, rfl⟩ := List.mem_map.1 hi
        exact ⟨isSpace_nil, isSpace_nil⟩
      · intro i hi
        obtain ⟨v, hv, rfl⟩ := List.mem_map.1 hi
        apply ih v hv
  | @record ms h ih =>
    rw [Value.record, Value.render, renderMembers_eq]
    cases ms with
    | nil => exact .emptyObject isSpace_nil
    | cons m ms =>
      let member (m : String × Value) : Member :=
        ⟨⟨m.2, m.2.render, [], []⟩, some m.1, renderString m.1.toList, [], []⟩
      have hv : ((m :: ms).map member).map (fun m => (m.key, m.value)) =
          (m :: ms).map fun m => (some m.1, m.2) := by simp [member]
      have hp : ((m :: ms).map member).map (·.padded) =
          (m :: ms).map fun m => renderString m.1.toList ++ ':' :: m.2.render := by
        simp [member, Member.padded, Item.padded]
      rw [← hp, ← hv]
      apply Written.object
      · simp
      · intro k hk
        obtain ⟨m, -, rfl⟩ := List.mem_map.1 hk
        exact ⟨written_renderString m.1, isSpace_nil, isSpace_nil, isSpace_nil, isSpace_nil⟩
      · intro k hk
        obtain ⟨m, hm, rfl⟩ := List.mem_map.1 hk
        apply ih m hm

/-- The digits of a count are a whole number. -/
theorem isWhole_ofNat (n : Nat) :
  IsWhole (Numeral.ofNat n)
  := by
  obtain rfl | h := Nat.eq_zero_or_pos n
  · left
    rfl
  · right
    exact ⟨Numeral.isDigits_ofNat n, Numeral.head?_ofNat h⟩

theorem Value.isWritable_nat (n : Nat) :
  (Value.nat n).IsWritable
  := IsWritable.number (isWhole_ofNat n) (Or.inl rfl) (fun x hx => by contradiction)

/-- The text of a value is read as that value. -/
theorem read?_render {v : Value} (h : v.IsWritable) :
  read? v.render = some v
  := by
  simpa using read?_of_written (written_render h) isSpace_nil isSpace_nil

end QuoteFeed.Json
