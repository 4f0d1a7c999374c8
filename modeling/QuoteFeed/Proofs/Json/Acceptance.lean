import QuoteFeed.Proofs.Json.Reader

/-!
# What is read is written

The reader accepts nothing but the grammar: what it takes off the head of a text writes the value
that it reads (`Json.readsWritten`), so a text is read exactly if it writes a value, with
white space around it (`Json.read?_eq_some_iff`).  An object tells by itself where it ends, whatever
follows, so no text of an object is the start of another (`Json.Written.eq_of_isPrefix`).
-/

namespace QuoteFeed.Json

/-! ### Strings -/

theorem isHex_of_hexValue? {n : Nat} {c : Char} (h : hexValue? c = some n) :
  IsHex n c
  := by
  have digits : ∀ k < 10, "0123456789abcdef".toList[k]? = some (Char.ofNat ('0'.toNat + k)) := by
    decide
  have lower : ∀ k < 6, "0123456789abcdef".toList[k + 10]? = some (Char.ofNat ('a'.toNat + k)) := by
    decide
  have upper : ∀ k < 6, "0123456789ABCDEF".toList[k + 10]? = some (Char.ofNat ('A'.toNat + k)) := by
    decide
  have range {a b : Char} (ha : a ≤ c) (hb : c ≤ b) :
      c.toNat - a.toNat ≤ b.toNat - a.toNat ∧ Char.ofNat (a.toNat + (c.toNat - a.toNat)) = c := by
    have ha : a.toNat ≤ c.toNat := ha
    have hb : c.toNat ≤ b.toNat := hb
    rw [Nat.add_sub_cancel' ha, Char.ofNat_toNat]
    exact ⟨Nat.sub_le_sub_right hb _, rfl⟩
  rw [hexValue?] at h
  split at h
  · rename_i hd
    obtain ⟨ha, hb⟩ := Char.isDigit_iff_toNat.1 hd
    obtain ⟨hle, hc⟩ := range (a := '0') (b := '9') ha hb
    obtain rfl := Option.some.inj h
    left
    rw [digits _ (Nat.lt_succ_of_le hle), hc]
  · split at h
    · rename_i hd
      obtain ⟨hle, hc⟩ := range hd.1 hd.2
      obtain rfl := Option.some.inj h
      left
      rw [lower _ (Nat.lt_succ_of_le hle), hc]
    · split at h
      · rename_i hd
        obtain ⟨hle, hc⟩ := range hd.1 hd.2
        obtain rfl := Option.some.inj h
        right
        rw [upper _ (Nat.lt_succ_of_le hle), hc]
      · cases h

/-- A code unit is spelled by hexadecimal digits. -/
theorem exists_isHex {n : Nat} {a b c d : Char} (h : hexUnit? a b c d = some n) :
  ∃ i j k l, IsHex i a ∧ IsHex j b ∧ IsHex k c ∧ IsHex l d ∧ n = ((i * 16 + j) * 16 + k) * 16 + l
  := by
  simp only [hexUnit?, Option.bind_eq_bind, Option.bind_eq_some_iff, Option.pure_def,
    Option.some_inj] at h
  obtain ⟨i, hi, j, hj, k, hk, l, hl, rfl⟩ := h
  exact ⟨i, j, k, l, isHex_of_hexValue? hi, isHex_of_hexValue? hj, isHex_of_hexValue? hk,
    isHex_of_hexValue? hl, rfl⟩

theorem mem_shortEscapes {e c : Char} (h : escaped? e = some c) :
  (e, c) ∈ shortEscapes
  := by
  rw [escaped?.eq_def] at h
  split at h
  case h_9 => cases h
  all_goals
    obtain rfl := Option.some.inj h
    decide

/-- Up to the closing quote stands a literal. -/
theorem literal_of_readPieces? {s r : List Char} {ps : List Piece}
    (h : readPieces? s = some (ps, r)) :
  ∃ t, s = t ++ '"' :: r ∧ Literal ps t
  := by
  induction s using readPieces?.induct generalizing ps with
  | case1 => cases h
  | case2 s =>
    obtain ⟨rfl, rfl⟩ := Prod.mk.inj (Option.some.inj h)
    exact ⟨[], rfl, .nil⟩
  | case3 a b c d s ih =>
    simp only [readPieces?, Option.bind_eq_bind, Option.bind_eq_some_iff, Option.pure_def,
      Option.some_inj, Prod.exists, Prod.mk.injEq] at h
    obtain ⟨n, hn, ps, r, hs, rfl, rfl⟩ := h
    obtain ⟨i, j, k, l, ha, hb, hc, hd, rfl⟩ := exists_isHex hn
    obtain ⟨t, rfl, ht⟩ := ih hs
    exact ⟨'\\' :: 'u' :: a :: b :: c :: d :: t, rfl, .unit ha hb hc hd ht⟩
  | case4 e s hu ih =>
    rw [readPieces?] at h
    · simp only [Option.bind_eq_bind, Option.bind_eq_some_iff, Option.pure_def, Option.some_inj,
        Prod.exists, Prod.mk.injEq] at h
      obtain ⟨c, he, ps, r, hs, rfl, rfl⟩ := h
      obtain ⟨t, rfl, ht⟩ := ih hs
      exact ⟨'\\' :: e :: t, rfl, .short (mem_shortEscapes he) ht⟩
    · apply hu
  | case5 c s hq hu he hc =>
    rw [readPieces?, if_pos hc] at h
    · cases h
    · apply hq
    · apply hu
    · apply he
  | case6 c s hq hu he hc ih =>
    rw [readPieces?, if_neg hc] at h
    · simp only [Option.bind_eq_bind, Option.bind_eq_some_iff, Option.pure_def, Option.some_inj,
        Prod.exists, Prod.mk.injEq] at h
      obtain ⟨ps, r, hs, rfl, rfl⟩ := h
      obtain ⟨t, rfl, ht⟩ := ih hs
      simp only [Bool.or_eq_true, beq_iff_eq, decide_eq_true_eq, not_or, Nat.not_lt] at hc
      exact ⟨c :: t, rfl, .plain hq hc.1 hc.2 ht⟩
    · apply hq
    · apply hu
    · apply he

/-- A string is taken off up to its closing quote. -/
theorem writtenString_of_readString? {u r : List Char} {s : Option String}
    (h : readString? u = some (s, r)) :
  ∃ t, '"' :: u = t ++ r ∧ WrittenString s t
  := by
  simp only [readString?, Option.map_eq_some_iff, Prod.exists, Prod.mk.injEq] at h
  obtain ⟨ps, _, hp, rfl, rfl⟩ := h
  obtain ⟨t, rfl, ht⟩ := literal_of_readPieces? hp
  use '"' :: (t ++ ['"'])
  constructor
  · simp
  · cases ha : assemble? ps with
    | some cs =>
      apply WrittenString.text ht
      rw [String.toList_ofList]
      apply spells_of_assemble? (fun n hn => ht.unit_lt hn) ha
    | none =>
      apply WrittenString.ragged ht
      intro cs hs
      rw [assemble?_of_spells hs] at ha
      cases ha

/-! ### Numbers -/

theorem isDigits_of_readDigits? {s ds r : List Char} (h : readDigits? s = some (ds, r)) :
  s = ds ++ r ∧ Numeral.isDigits ds
  := by
  rw [readDigits?] at h
  split at h
  · cases h
  · rename_i hne
    obtain ⟨rfl, rfl⟩ := Prod.mk.inj (Option.some.inj h)
    use List.takeWhile_append_dropWhile.symm
    simp only [Numeral.isDigits, Bool.and_eq_true, Bool.not_eq_true']
    exact ⟨by simpa using hne, List.all_takeWhile⟩

theorem isWhole_of_readWhole? {s ds r : List Char} (h : readWhole? s = some (ds, r)) :
  s = ds ++ r ∧ IsWhole ds
  := by
  rw [readWhole?.eq_def] at h
  split at h
  · split at h
    · cases h
    · obtain ⟨rfl, rfl⟩ := Prod.mk.inj (Option.some.inj h)
      exact ⟨rfl, .inl rfl⟩
  · rename_i hz
    obtain ⟨rfl, hd⟩ := isDigits_of_readDigits? h
    use rfl
    by_cases h0 : ds.head? = some '0'
    · left
      obtain ⟨ds, rfl⟩ := List.head?_eq_some_iff.1 h0
      cases ds with
      | nil => rfl
      | cons c ds => apply absurd rfl (hz c (ds ++ r))
    · exact .inr ⟨hd, h0⟩

theorem writtenFraction_of_readFraction? {s ds r : List Char}
    (h : readFraction? s = some (ds, r)) :
  ∃ f, s = f ++ r ∧ WrittenFraction ds f
  := by
  rw [readFraction?.eq_def] at h
  split at h
  · obtain ⟨rfl, hd⟩ := isDigits_of_readDigits? h
    exact ⟨_, rfl, .digits hd⟩
  · obtain ⟨rfl, rfl⟩ := Prod.mk.inj (Option.some.inj h)
    exact ⟨[], rfl, .absent⟩

theorem isDigits_of_readExponentDigits? {negative : Bool} {x : Option Exponent} {s r : List Char}
    (h : readExponentDigits? negative s = some (x, r)) :
  ∃ ds, s = ds ++ r ∧ Numeral.isDigits ds ∧ x = some ⟨negative, ds⟩
  := by
  simp only [readExponentDigits?, Option.map_eq_some_iff, Prod.exists, Prod.mk.injEq] at h
  obtain ⟨ds, _, h, rfl, rfl⟩ := h
  obtain ⟨rfl, hd⟩ := isDigits_of_readDigits? h
  exact ⟨ds, rfl, hd, rfl⟩

theorem writtenExponent_of_readExponent? {s r : List Char} {x : Option Exponent}
    (h : readExponent? s = some (x, r)) :
  ∃ e, s = e ++ r ∧ WrittenExponent x e
  := by
  have signed {mark : Char} {s : List Char} (hm : mark = 'e' ∨ mark = 'E')
      (h : readSignedExponent? s = some (x, r)) :
      ∃ e, mark :: s = e ++ r ∧ WrittenExponent x e := by
    rw [readSignedExponent?.eq_def] at h
    split at h
    · obtain ⟨ds, rfl, hd, rfl⟩ := isDigits_of_readExponentDigits? h
      exact ⟨_, rfl, .minus hm hd⟩
    · obtain ⟨ds, rfl, hd, rfl⟩ := isDigits_of_readExponentDigits? h
      exact ⟨_, rfl, .plus hm hd⟩
    · obtain ⟨ds, rfl, hd, rfl⟩ := isDigits_of_readExponentDigits? h
      exact ⟨_, rfl, .digits hm hd⟩
  rw [readExponent?.eq_def] at h
  split at h
  · apply signed (.inl rfl) h
  · apply signed (.inr rfl) h
  · obtain ⟨rfl, rfl⟩ := Prod.mk.inj (Option.some.inj h)
    exact ⟨[], rfl, .absent⟩

/-- A number is taken off part by part. -/
theorem writtenNumber_of_readNumber? {s r : List Char} {n : Number}
    (h : readNumber? s = some (n, r)) :
  ∃ t, s = t ++ r ∧ WrittenNumber n t
  := by
  have unsigned {b : Bool} {s : List Char} (h : readUnsigned? b s = some (n, r)) :
      ∃ t, (if b then ['-'] else []) ++ s = t ++ r ∧ WrittenNumber n t := by
    simp only [readUnsigned?, Option.bind_eq_bind, Option.bind_eq_some_iff, Option.pure_def,
      Option.some_inj, Prod.exists, Prod.mk.injEq] at h
    obtain ⟨whole, s₁, h₁, fraction, s₂, h₂, exponent, s₃, h₃, rfl, rfl⟩ := h
    obtain ⟨rfl, hw⟩ := isWhole_of_readWhole? h₁
    obtain ⟨f, rfl, hf⟩ := writtenFraction_of_readFraction? h₂
    obtain ⟨e, rfl, he⟩ := writtenExponent_of_readExponent? h₃
    refine ⟨_, ?_, .parts b hw hf he⟩
    simp only [List.append_assoc]
  rw [readNumber?.eq_def] at h
  split at h
  · apply unsigned (b := true) h
  · apply unsigned (b := false) h

/-! ### Values -/

/-- What the reader skips is white space. -/
theorem exists_skipSpace (s : List Char) :
  ∃ w, IsSpace w ∧ s = w ++ skipSpace s
  := ⟨s.takeWhile isSpace, fun _ hc => List.all_eq_true.1 List.all_takeWhile _ hc,
    List.takeWhile_append_dropWhile.symm⟩

theorem withCommas_cons {ts : List (List Char)} (t : List Char) (hne : ts ≠ []) :
  withCommas (t :: ts) = t ++ ',' :: withCommas ts
  := by
  cases ts with
  | nil => exact absurd rfl hne
  | cons t' ts => apply withCommas_cons_cons

/-- An item that is written where it stands. -/
structure Item.IsWritten (i : Item) : Prop where
  spaced : i.IsSpaced
  written : Written i.value i.text

/-- A member that is written where it stands. -/
structure Member.IsWritten (m : Member) : Prop where
  keyed : m.IsKeyed
  written : Written m.value m.text

/-- The text begins with a value, and the rest follows. -/
def StartsValue (v : Value) (s r : List Char) : Prop :=
  ∃ t, s = t ++ r ∧ Written v t

/-- The text begins with items and the closing bracket of their array, and the rest follows. -/
def StartsItems (vs : List Value) (s r : List Char) : Prop :=
  ∃ items : List Item, items ≠ [] ∧ (∀ i ∈ items, i.IsWritten) ∧ items.map (·.value) = vs ∧
    s = withCommas (items.map (·.padded)) ++ ']' :: r

/-- The text begins with members and the closing brace of their object, and the rest follows. -/
def StartsMembers (ms : List (Option String × Value)) (s r : List Char) : Prop :=
  ∃ members : List Member, members ≠ [] ∧ (∀ m ∈ members, m.IsWritten) ∧
    (members.map fun m => (m.key, m.value)) = ms ∧
    s = withCommas (members.map (·.padded)) ++ '}' :: r

/-- With the given fuel, what is read is written. -/
structure ReadsWritten (fuel : Nat) : Prop where
  value {s r : List Char} {v : Value} (h : readValue? fuel s = some (v, r)) : StartsValue v s r
  items {s r : List Char} {vs : List Value} (h : readItems? fuel s = some (vs, r)) :
    StartsItems vs s r
  members {s r : List Char} {ms : List (Option String × Value)}
    (h : readMembers? fuel s = some (ms, r)) : StartsMembers ms s r

namespace ReadsWritten

variable {fuel : Nat} {s r : List Char}

/-- A value is an item with the white space around it. -/
theorem item (hf : ReadsWritten fuel) {v : Value}
    (h : readValue? fuel (skipSpace s) = some (v, r)) :
  ∃ i : Item, i.IsWritten ∧ i.value = v ∧ s = i.padded ++ skipSpace r
  := by
  obtain ⟨t, ht, hv⟩ := hf.value h
  obtain ⟨before, hb, hs⟩ := exists_skipSpace s
  obtain ⟨after, ha, hr⟩ := exists_skipSpace r
  refine ⟨⟨v, t, before, after⟩, ⟨⟨hb, ha⟩, hv⟩, rfl, ?_⟩
  rw [hs, ht, Item.padded, List.append_assoc, List.append_assoc, ← hr]

theorem value_succ (hf : ReadsWritten fuel) {v : Value}
    (h : readValue? (fuel + 1) s = some (v, r)) :
  StartsValue v s r
  := by
  rw [readValue?.eq_def] at h
  dsimp only at h
  split at h
  · obtain ⟨rfl, rfl⟩ := Prod.mk.inj (Option.some.inj h)
    exact ⟨_, rfl, .null⟩
  · obtain ⟨rfl, rfl⟩ := Prod.mk.inj (Option.some.inj h)
    exact ⟨_, rfl, .true⟩
  · obtain ⟨rfl, rfl⟩ := Prod.mk.inj (Option.some.inj h)
    exact ⟨_, rfl, .false⟩
  · simp only [Option.map_eq_some_iff, Prod.exists, Prod.mk.injEq] at h
    obtain ⟨k, _, h, rfl, rfl⟩ := h
    obtain ⟨t, hs, ht⟩ := writtenString_of_readString? h
    exact ⟨t, hs, .string ht⟩
  · rename_i s
    split at h
    · rename_i hs
      obtain ⟨rfl, rfl⟩ := Prod.mk.inj (Option.some.inj h)
      obtain ⟨w, hw, hsw⟩ := exists_skipSpace s
      refine ⟨_, ?_, .emptyArray hw⟩
      rw [hsw, hs]
      simp
    · rw [readItems?_skipSpace] at h
      simp only [Option.map_eq_some_iff, Prod.exists, Prod.mk.injEq] at h
      obtain ⟨vs, _, h, rfl, rfl⟩ := h
      obtain ⟨items, hne, hi, rfl, rfl⟩ := hf.items h
      refine ⟨_, ?_, .array hne (fun i h => (hi i h).spaced) fun i h => (hi i h).written⟩
      simp
  · rename_i s
    split at h
    · rename_i hs
      obtain ⟨rfl, rfl⟩ := Prod.mk.inj (Option.some.inj h)
      obtain ⟨w, hw, hsw⟩ := exists_skipSpace s
      refine ⟨_, ?_, .emptyObject hw⟩
      rw [hsw, hs]
      simp
    · rw [readMembers?_skipSpace] at h
      simp only [Option.map_eq_some_iff, Prod.exists, Prod.mk.injEq] at h
      obtain ⟨ms, _, h, rfl, rfl⟩ := h
      obtain ⟨members, hne, hm, rfl, rfl⟩ := hf.members h
      refine ⟨_, ?_, .object hne (fun m h => (hm m h).keyed) fun m h => (hm m h).written⟩
      simp
  · simp only [Option.map_eq_some_iff, Prod.exists, Prod.mk.injEq] at h
    obtain ⟨n, _, h, rfl, rfl⟩ := h
    obtain ⟨t, hs, ht⟩ := writtenNumber_of_readNumber? h
    exact ⟨t, hs, .number ht⟩

theorem items_succ (hf : ReadsWritten fuel) {vs : List Value}
    (h : readItems? (fuel + 1) s = some (vs, r)) :
  StartsItems vs s r
  := by
  simp only [readItems?, Option.bind_eq_bind, Option.bind_eq_some_iff, Prod.exists] at h
  obtain ⟨v, s', hv, h⟩ := h
  obtain ⟨i, hi, rfl, hs⟩ := hf.item hv
  split at h
  · rename_i hc
    simp only [Option.bind_eq_some_iff, Option.pure_def, Option.some_inj, Prod.exists,
      Prod.mk.injEq] at h
    obtain ⟨vs, _, h, rfl, rfl⟩ := h
    obtain ⟨items, hne, his, rfl, rfl⟩ := hf.items h
    refine ⟨i :: items, by simp, by simpa using ⟨hi, his⟩, rfl, ?_⟩
    rw [hs, hc, List.map_cons, withCommas_cons _ (by simpa using hne), List.append_assoc,
      List.cons_append]
  · rename_i hc
    obtain ⟨rfl, rfl⟩ := Prod.mk.inj (Option.some.inj h)
    refine ⟨[i], by simp, by simpa using hi, rfl, ?_⟩
    rw [hs, hc, List.map_singleton, withCommas_singleton]
  · cases h

theorem members_succ (hf : ReadsWritten fuel) {ms : List (Option String × Value)}
    (h : readMembers? (fuel + 1) s = some (ms, r)) :
  StartsMembers ms s r
  := by
  rw [readMembers?] at h
  split at h
  case h_2 => cases h
  rename_i s₁ hq
  simp only [Option.bind_eq_bind, Option.bind_eq_some_iff, Prod.exists] at h
  obtain ⟨key, s₂, hk, h⟩ := h
  split at h
  case h_2 => cases h
  rename_i s₃ hc
  simp only [Option.bind_eq_some_iff, Prod.exists] at h
  obtain ⟨v, s₄, hv, h⟩ := h
  -- the member that stands first
  obtain ⟨m, hm, rfl, rfl, hs⟩ : ∃ m : Member, m.IsWritten ∧ m.key = key ∧ m.value = v ∧
      s = m.padded ++ skipSpace s₄ := by
    obtain ⟨beforeKey, hb, hs⟩ := exists_skipSpace s
    obtain ⟨keyText, ht, hkey⟩ := writtenString_of_readString? hk
    obtain ⟨afterKey, ha, hs₂⟩ := exists_skipSpace s₂
    obtain ⟨i, hi, rfl, hs₃⟩ := hf.item hv
    refine ⟨⟨i, key, keyText, beforeKey, afterKey⟩, ⟨⟨hkey, hb, ha, hi.spaced⟩, hi.written⟩, rfl,
      rfl, ?_⟩
    rw [hs, hq, ht, hs₂, hc, hs₃, Member.padded]
    simp
  split at h
  · rename_i hc
    simp only [Option.bind_eq_some_iff, Option.pure_def, Option.some_inj, Prod.exists,
      Prod.mk.injEq] at h
    obtain ⟨ms, _, h, rfl, rfl⟩ := h
    obtain ⟨members, hne, hms, rfl, rfl⟩ := hf.members h
    refine ⟨m :: members, by simp, by simpa using ⟨hm, hms⟩, rfl, ?_⟩
    rw [hs, hc, List.map_cons, withCommas_cons _ (by simpa using hne), List.append_assoc,
      List.cons_append]
  · rename_i hc
    obtain ⟨rfl, rfl⟩ := Prod.mk.inj (Option.some.inj h)
    refine ⟨[m], by simp, by simpa using hm, rfl, ?_⟩
    rw [hs, hc, List.map_singleton, withCommas_singleton]
  · cases h

end ReadsWritten

/-- Whatever the fuel, what is read is written. -/
theorem readsWritten (fuel : Nat) :
  ReadsWritten fuel
  := by
  induction fuel with
  | zero =>
    refine ⟨fun h => ?_, fun h => ?_, fun h => ?_⟩
    · rw [readValue?] at h
      cases h
    · rw [readItems?] at h
      cases h
    · rw [readMembers?] at h
      cases h
  | succ fuel ih => exact ⟨ih.value_succ, ih.items_succ, ih.members_succ⟩

/-- A text is read exactly if it writes a value, with white space around it. -/
theorem read?_eq_some_iff {s : List Char} {v : Value} :
  read? s = some v ↔ ∃ w t w', s = w ++ (t ++ w') ∧ IsSpace w ∧ Written v t ∧ IsSpace w'
  := by
  constructor
  · intro h
    simp only [read?, Option.bind_eq_bind, Option.bind_eq_some_iff, Prod.exists] at h
    obtain ⟨v', r, hv, h⟩ := h
    split at h
    case isFalse => cases h
    rename_i hr
    obtain rfl := Option.some.inj h
    obtain ⟨t, ht, hw⟩ := (readsWritten _).value hv
    obtain ⟨w, hsw, hs⟩ := exists_skipSpace s
    obtain ⟨w', hsw', hr'⟩ := exists_skipSpace r
    rw [List.isEmpty_iff.1 hr, List.append_nil] at hr'
    refine ⟨w, t, w', ?_, hsw, hw, hsw'⟩
    rw [hs, ht, ← hr']
  · rintro ⟨w, t, w', rfl, hsw, hw, hsw'⟩
    apply read?_of_written hw hsw hsw'

/-! ### Objects -/

/-- An object is read up to its closing brace, whatever follows. -/
theorem readValue?_of_object_written {ms : List (Option String × Value)} {t : List Char}
    (h : Written (.object ms) t) {fuel : Nat} (hf : 2 * t.length ≤ fuel + 1) (r : List Char) :
  readValue? (fuel + 1) (t ++ r) = some (.object ms, r)
  := by
  cases h with
  | emptyObject hw =>
    rw [List.cons_append, List.append_assoc, readValue?, skipSpace_append hw]
    rfl
  | @object members hne hs h =>
    have reads (m : Member) (hm : m ∈ members) : m.Reads :=
      ⟨hs m hm, (h m hm).starts, readsAs_of_written (h m hm)⟩
    simp only [List.length_cons, List.length_append, List.length_nil] at hf
    rw [List.cons_append, List.append_assoc, List.singleton_append]
    apply readValue?_members hne reads (by omega)

/-- No text of an object is the start of another. -/
theorem Written.eq_of_isPrefix {ms ms' : List (Option String × Value)} {t t' : List Char}
    (h : Written (.object ms) t) (h' : Written (.object ms') t') (hp : t <+: t') :
  t = t'
  := by
  obtain ⟨r, rfl⟩ := hp
  have hr : readValue? (2 * (t ++ r).length + 1) (t ++ r) = some (.object ms, r) := by
    apply readValue?_of_object_written h
    simp only [List.length_append]
    omega
  have hn : readValue? (2 * (t ++ r).length + 1) (t ++ r) = some (.object ms', []) := by
    have h := readValue?_of_object_written h' (Nat.le_add_right _ 1) []
    rwa [List.append_nil] at h
  rw [hr, Option.some_inj, Prod.mk.injEq] at hn
  rw [hn.2, List.append_nil]

/-- What starts with a brace is an object. -/
theorem Written.exists_object {v : Value} {s : List Char} (h : Written v ('{' :: s)) :
  ∃ ms, v = .object ms
  := by
  generalize ht : '{' :: s = t at h
  cases h with
  | null => exact absurd ht (by simp)
  | true => exact absurd ht (by simp)
  | false => exact absurd ht (by simp)
  | number h =>
    obtain ⟨c, u, rfl, hc⟩ := h.starts
    obtain ⟨rfl, -⟩ := List.cons.inj ht
    exact absurd hc (by decide)
  | string h =>
    cases h with
    | text ht' hs => exact absurd ht (by simp)
    | ragged ht' hs => exact absurd ht (by simp)
  | emptyArray hw => exact absurd ht (by simp)
  | array hne hs h => exact absurd ht (by simp)
  | emptyObject hw => exact ⟨_, rfl⟩
  | object hne hs h => exact ⟨_, rfl⟩

/-- What is read from a brace on is the text of an object, with white space after it. -/
theorem exists_object_of_read? {s : List Char} {v : Value} (h : read? ('{' :: s) = some v) :
  ∃ ms t w, v = .object ms ∧ '{' :: s = t ++ w ∧ Written (.object ms) t ∧ IsSpace w
  := by
  obtain ⟨w, t, w', hs, hsw, hv, hsw'⟩ := read?_eq_some_iff.1 h
  cases w with
  | cons c w =>
    obtain ⟨rfl, -⟩ := List.cons.inj hs
    exact absurd (hsw _ List.mem_cons_self) (by decide)
  | nil =>
    obtain ⟨c, u, rfl, -⟩ := hv.starts
    obtain ⟨rfl, -⟩ := List.cons.inj hs
    obtain ⟨ms, rfl⟩ := hv.exists_object
    exact ⟨ms, _, w', rfl, hs, hv, hsw'⟩

end QuoteFeed.Json
