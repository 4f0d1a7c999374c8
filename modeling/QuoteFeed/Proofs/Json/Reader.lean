import Mathlib.Data.List.DropRight
import QuoteFeed.Proofs.Json.Tokens

/-!
# Reading values

Every text that writes a value is read as that value (`Json.read?_of_written`).  A value is read as
far as it is written, whatever delimits it, and twice the length of its text is fuel enough
(`Json.readsAs_of_written`, by induction on how the value is written).
-/

namespace QuoteFeed.Json

/-! ### White space -/

theorem isSpace_nil : IsSpace []
  := fun _ hc => nomatch hc

theorem skipSpace_append {w r : List Char} (hw : IsSpace w) :
  skipSpace (w ++ r) = skipSpace r
  := List.dropWhile_append_of_pos hw

theorem skipSpace_cons {c : Char} {r : List Char} (h : isSpace c = false) :
  skipSpace (c :: r) = c :: r
  := by
  rw [skipSpace, List.dropWhile_cons_of_neg]
  simp [h]

theorem delimited_cons {c : Char} (r : List Char) (h : c = ',' ∨ c = ']' ∨ c = '}') :
  Delimited (c :: r)
  := by
  intro c' hc
  obtain rfl := Option.some.inj hc
  exact Or.inr h

/-- White space before what delimits a value delimits it. -/
theorem delimited_append {w r : List Char} (hw : IsSpace w) (hr : Delimited r) :
  Delimited (w ++ r)
  := by
  cases w with
  | nil => apply hr
  | cons c w =>
    intro c' hc
    obtain rfl := Option.some.inj hc
    left
    apply hw c List.mem_cons_self

/-! ### The start of a value -/

/-- The text starts neither with white space nor with a closing bracket. -/
def Starts (t : List Char) : Prop :=
  ∃ c u, t = c :: u ∧ isSpace c = false ∧ c ≠ ']'

theorem starts_of_isDigit {c : Char} (u : List Char) (h : c.isDigit = true) :
  Starts (c :: u)
  := by
  use c, u, rfl
  constructor
  · simp [isSpace, Numeral.ne_of_isDigit (d := ' ') h rfl, Numeral.ne_of_isDigit (d := '\t') h rfl,
      Numeral.ne_of_isDigit (d := '\n') h rfl, Numeral.ne_of_isDigit (d := '\r') h rfl]
  · apply Numeral.ne_of_isDigit h rfl

/-- A number starts with a digit or the minus sign. -/
theorem WrittenNumber.starts {n : Number} {t : List Char} (h : WrittenNumber n t) :
  ∃ c u, t = c :: u ∧ (c.isDigit = true ∨ c = '-')
  := by
  obtain @⟨negative, whole, fraction, f, e, exponent, hw, hf, he⟩ := h
  cases negative with
  | true => exact ⟨_, _, rfl, Or.inr rfl⟩
  | false =>
    have h := hw.isDigits
    cases whole with
    | nil => simp [Numeral.isDigits] at h
    | cons c ds =>
      simp only [Numeral.isDigits, Bool.and_eq_true, List.all_cons] at h
      exact ⟨_, _, rfl, Or.inl h.2.1⟩

theorem Written.starts {v : Value} {t : List Char} (h : Written v t) :
  Starts t
  := by
  cases h with
  | null => exact ⟨_, _, rfl, rfl, by decide⟩
  | true => exact ⟨_, _, rfl, rfl, by decide⟩
  | false => exact ⟨_, _, rfl, rfl, by decide⟩
  | number h =>
    obtain ⟨c, u, rfl, hc | rfl⟩ := h.starts
    · apply starts_of_isDigit u hc
    · exact ⟨_, _, rfl, rfl, by decide⟩
  | string h =>
    cases h with
    | text ht hs => exact ⟨_, _, rfl, rfl, by decide⟩
    | ragged ht hs => exact ⟨_, _, rfl, rfl, by decide⟩
  | emptyArray hw => exact ⟨_, _, rfl, rfl, by decide⟩
  | array hne hs h => exact ⟨_, _, rfl, rfl, by decide⟩
  | emptyObject hw => exact ⟨_, _, rfl, rfl, by decide⟩
  | object hne hs h => exact ⟨_, _, rfl, rfl, by decide⟩

/-- An object is written between braces. -/
theorem Written.braces {v : Value} {t : List Char} (h : Written v t) {members}
    (hv : v = .object members) :
  ∃ s, t = '{' :: (s ++ ['}'])
  := by
  cases h with
  | emptyObject hw => exact ⟨_, rfl⟩
  | object hne hs h => exact ⟨_, rfl⟩
  | _ => exact nomatch hv

/-! ### Arrays and objects -/

theorem skipSpace_skipSpace (s : List Char) :
  skipSpace (skipSpace s) = skipSpace s
  := List.dropWhile_idempotent _ _

theorem readItems?_skipSpace (fuel : Nat) (s : List Char) :
  readItems? fuel (skipSpace s) = readItems? fuel s
  := by
  cases fuel with
  | zero => rw [readItems?, readItems?]
  | succ fuel => rw [readItems?, readItems?, skipSpace_skipSpace]

theorem readMembers?_skipSpace (fuel : Nat) (s : List Char) :
  readMembers? fuel (skipSpace s) = readMembers? fuel s
  := by
  cases fuel with
  | zero => rw [readMembers?, readMembers?]
  | succ fuel => rw [readMembers?, readMembers?, skipSpace_skipSpace]

@[simp]
theorem withCommas_singleton (t : List Char) :
  withCommas [t] = t
  := List.intercalate_singleton

@[simp]
theorem withCommas_cons_cons (t t' : List Char) (ts : List (List Char)) :
  withCommas (t :: t' :: ts) = t ++ ',' :: withCommas (t' :: ts)
  := by
  rw [withCommas, List.intercalate_cons_cons, List.append_assoc]
  rfl

/-- Texts with commas between them start as the first of them. -/
theorem exists_withCommas_append {ts : List (List Char)} (hne : ts ≠ []) (r : List Char) :
  ∃ t ∈ ts, ∃ s, withCommas ts ++ r = t ++ s
  := by
  cases ts with
  | nil => exact absurd rfl hne
  | cons t ts =>
    use t, List.mem_cons_self
    cases ts with
    | nil =>
      use r
      rw [withCommas_singleton]
    | cons t' ts =>
      use ',' :: (withCommas (t' :: ts) ++ r)
      rw [withCommas_cons_cons, List.append_assoc, List.cons_append]

/-- A text is read as a value, as far as it reaches, with fuel of twice its length. -/
def ReadsAs (v : Value) (t : List Char) : Prop :=
  ∀ fuel r, 2 * t.length ≤ fuel + 1 → Delimited r → readValue? (fuel + 1) (t ++ r) = some (v, r)

/-- An item that is read where it stands. -/
structure Item.Reads (i : Item) : Prop where
  spaced : i.IsSpaced
  starts : Starts i.text
  reads : ReadsAs i.value i.text

theorem Item.Reads.skipSpace_padded {i : Item} (h : i.Reads) (r : List Char) :
  skipSpace (i.padded ++ r) = i.text ++ (i.after ++ r)
  := by
  obtain ⟨c, u, ht, hc, -⟩ := h.starts
  rw [Item.padded, List.append_assoc, skipSpace_append h.spaced.1, List.append_assoc, ht,
    List.cons_append, skipSpace_cons hc]

/-- An item is read up to the white space after it. -/
theorem Item.Reads.readValue?_padded {i : Item} (h : i.Reads) {fuel : Nat}
    (hf : 2 * i.padded.length ≤ fuel) {r : List Char} (hd : Delimited r) :
  readValue? fuel (skipSpace (i.padded ++ r)) = some (i.value, i.after ++ r)
  := by
  have hle : 2 * i.text.length ≤ fuel := by
    simp only [Item.padded, List.length_append] at hf
    omega
  obtain ⟨fuel, rfl⟩ : ∃ n, fuel = n + 1 := by
    obtain ⟨c, u, ht, -⟩ := h.starts
    use fuel - 1
    rw [ht, List.length_cons] at hle
    omega
  rw [h.skipSpace_padded]
  apply h.reads _ _ hle (delimited_append h.spaced.2 hd)

/-- Items with commas between them are read up to the closing bracket. -/
theorem readItems?_append {items : List Item} (hne : items ≠ []) (h : ∀ i ∈ items, i.Reads)
    {fuel : Nat} (hf : 2 * (withCommas (items.map (·.padded))).length < fuel) (r : List Char) :
  readItems? fuel (withCommas (items.map (·.padded)) ++ ']' :: r) =
    some (items.map (·.value), r)
  := by
  induction items generalizing fuel with
  | nil => exact absurd rfl hne
  | cons i items ih =>
    obtain ⟨fuel, rfl⟩ : ∃ n, fuel = n + 1 := ⟨fuel - 1, by omega⟩
    have hi := h i List.mem_cons_self
    cases items with
    | nil =>
      simp only [List.map_cons, List.map_nil, withCommas_singleton] at hf ⊢
      rw [readItems?, hi.readValue?_padded (by omega) (delimited_cons r (by simp))]
      simp only [Option.bind_eq_bind, Option.bind_some]
      rw [skipSpace_append hi.spaced.2, skipSpace_cons rfl]
      rfl
    | cons j items =>
      simp only [List.map_cons, withCommas_cons_cons, List.append_assoc, List.cons_append,
        List.length_append, List.length_cons] at hf ih ⊢
      rw [readItems?, hi.readValue?_padded (by omega) (delimited_cons _ (by simp))]
      simp only [Option.bind_eq_bind, Option.bind_some]
      rw [skipSpace_append hi.spaced.2, skipSpace_cons rfl]
      change (readItems? fuel _).bind _ = _
      rw [ih (by simp) (fun k hk => h k (List.mem_cons_of_mem _ hk)) (by omega)]
      rfl

/-- A member that is read where it stands. -/
structure Member.Reads (m : Member) : Prop where
  keyed : m.IsKeyed
  starts : Starts m.text
  reads : ReadsAs m.value m.text

theorem Member.Reads.item {m : Member} (h : m.Reads) :
  m.toItem.Reads
  := ⟨h.keyed.2.2.2, h.starts, h.reads⟩

/-- The key of a member is read up to the white space after it. -/
theorem Member.Reads.readString?_padded {m : Member} (h : m.Reads) (r : List Char) :
  ∃ u, skipSpace (m.padded ++ r) = '"' :: u ∧
    readString? u = some (m.key, m.afterKey ++ ':' :: (m.toItem.padded ++ r))
  := by
  obtain ⟨hk, hb, -⟩ := h.keyed
  obtain ⟨u, hu, hr⟩ := readString?_of_written hk (m.afterKey ++ ':' :: (m.toItem.padded ++ r))
  use u
  constructor
  · rw [Member.padded, List.append_assoc, skipSpace_append hb]
    simp only [List.append_assoc, List.cons_append]
    rw [hu, skipSpace_cons rfl]
  · apply hr

/-- Members with commas between them are read up to the closing brace. -/
theorem readMembers?_append {members : List Member} (hne : members ≠ [])
    (h : ∀ m ∈ members, m.Reads) {fuel : Nat}
    (hf : 2 * (withCommas (members.map (·.padded))).length < fuel) (r : List Char) :
  readMembers? fuel (withCommas (members.map (·.padded)) ++ '}' :: r) =
    some (members.map fun m => (m.key, m.value), r)
  := by
  induction members generalizing fuel with
  | nil => exact absurd rfl hne
  | cons m members ih =>
    obtain ⟨fuel, rfl⟩ : ∃ n, fuel = n + 1 := ⟨fuel - 1, by omega⟩
    have hm := h m List.mem_cons_self
    obtain ⟨-, -, ha, hs⟩ := hm.keyed
    have hle : m.toItem.padded.length ≤ m.padded.length := by
      simp only [Member.padded, List.length_append, List.length_cons]
      omega
    cases members with
    | nil =>
      simp only [List.map_cons, List.map_nil, withCommas_singleton] at hf ⊢
      obtain ⟨u, hu, hr⟩ := hm.readString?_padded ('}' :: r)
      rw [readMembers?, hu]
      simp only [Option.bind_eq_bind, hr, Option.bind_some]
      rw [skipSpace_append ha, skipSpace_cons rfl]
      change (readValue? fuel _).bind _ = _
      rw [hm.item.readValue?_padded (by omega) (delimited_cons r (by simp))]
      simp only [Option.bind_some]
      rw [skipSpace_append hs.2, skipSpace_cons rfl]
      rfl
    | cons m' members =>
      simp only [List.map_cons, withCommas_cons_cons, List.append_assoc, List.cons_append,
        List.length_append, List.length_cons] at hf ih ⊢
      obtain ⟨u, hu, hr⟩ := hm.readString?_padded (',' :: (withCommas (m'.padded :: members.map (·.padded)) ++
        '}' :: r))
      rw [readMembers?, hu]
      simp only [Option.bind_eq_bind, hr, Option.bind_some]
      rw [skipSpace_append ha, skipSpace_cons rfl]
      change (readValue? fuel _).bind _ = _
      rw [hm.item.readValue?_padded (by omega) (delimited_cons _ (by simp))]
      simp only [Option.bind_some]
      rw [skipSpace_append hs.2, skipSpace_cons rfl]
      change (readMembers? fuel _).bind _ = _
      rw [ih (by simp) (fun k hk => h k (List.mem_cons_of_mem _ hk)) (by omega)]
      rfl

theorem skipSpace_items {items : List Item} (hne : items ≠ []) (h : ∀ i ∈ items, i.Reads)
    (r : List Char) :
  ∃ c u, skipSpace (withCommas (items.map (·.padded)) ++ r) = c :: u ∧ c ≠ ']'
  := by
  have hne : items.map (·.padded) ≠ [] := by simpa using hne
  obtain ⟨_, ht, s, hs⟩ := exists_withCommas_append hne r
  obtain ⟨i, hi, rfl⟩ := List.mem_map.1 ht
  obtain ⟨c, u, ht, -, hc⟩ := (h i hi).starts
  use c, u ++ (i.after ++ s)
  rw [hs, (h i hi).skipSpace_padded, ht]
  exact ⟨rfl, hc⟩

theorem skipSpace_members {members : List Member} (hne : members ≠ [])
    (h : ∀ m ∈ members, m.Reads) (r : List Char) :
  ∃ u, skipSpace (withCommas (members.map (·.padded)) ++ r) = '"' :: u
  := by
  have hne : members.map (·.padded) ≠ [] := by simpa using hne
  obtain ⟨_, ht, s, hs⟩ := exists_withCommas_append hne r
  obtain ⟨m, hm, rfl⟩ := List.mem_map.1 ht
  obtain ⟨u, hu, -⟩ := (h m hm).readString?_padded s
  use u
  rw [hs, hu]

/-! ### Values -/

theorem readValue?_of_number {c : Char} {s : List Char} (h : c.isDigit = true ∨ c = '-')
    (fuel : Nat) :
  readValue? (fuel + 1) (c :: s) = (readNumber? (c :: s)).map fun (n, r) => (.number n, r)
  := by
  have ne (d : Char) (hd : d.isDigit = false) (hm : '-' ≠ d) (s' : List Char) :
      c :: s ≠ d :: s' := by
    intro e
    obtain ⟨rfl, -⟩ := List.cons.inj e
    obtain h | h := h
    · apply Numeral.ne_of_isDigit h hd rfl
    · apply hm h.symm
  rw [readValue?]
  · exact fun _ => ne 'n' rfl (by decide) _
  · exact fun _ => ne 't' rfl (by decide) _
  · exact fun _ => ne 'f' rfl (by decide) _
  · exact fun _ => ne '"' rfl (by decide) _
  · exact fun _ => ne '[' rfl (by decide) _
  · exact fun _ => ne '{' rfl (by decide) _

theorem readValue?_of_array {s r : List Char} {c : Char} (hs : skipSpace s = c :: r) (hc : c ≠ ']')
    (fuel : Nat) :
  readValue? (fuel + 1) ('[' :: s) =
    (readItems? fuel (skipSpace s)).map fun (vs, r) => (.array vs, r)
  := by
  rw [readValue?, hs]
  split
  · rename_i e
    apply absurd (List.cons.inj e).1 hc
  · rfl

theorem readValue?_of_object {s r : List Char} {c : Char} (hs : skipSpace s = c :: r) (hc : c ≠ '}')
    (fuel : Nat) :
  readValue? (fuel + 1) ('{' :: s) =
    (readMembers? fuel (skipSpace s)).map fun (ms, r) => (.object ms, r)
  := by
  rw [readValue?, hs]
  split
  · rename_i e
    apply absurd (List.cons.inj e).1 hc
  · rfl

/-- Members between braces are read as an object, whatever follows. -/
theorem readValue?_members {members : List Member} (hne : members ≠ [])
    (h : ∀ m ∈ members, m.Reads) {fuel : Nat}
    (hf : 2 * (withCommas (members.map (·.padded))).length < fuel) (r : List Char) :
  readValue? (fuel + 1) ('{' :: (withCommas (members.map (·.padded)) ++ '}' :: r)) =
    some (.object (members.map fun m => (m.key, m.value)), r)
  := by
  obtain ⟨s, hs⟩ := skipSpace_members hne h ('}' :: r)
  rw [readValue?_of_object hs (by decide), readMembers?_skipSpace, readMembers?_append hne h hf]
  rfl

/-- Every text that writes a value is read as that value, as far as it reaches. -/
theorem readsAs_of_written {v : Value} {t : List Char} (h : Written v t) :
  ReadsAs v t
  := by
  induction h with
  | null => exact fun fuel r _ _ => rfl
  | true => exact fun fuel r _ _ => rfl
  | false => exact fun fuel r _ _ => rfl
  | number h =>
    intro fuel r hf hr
    have hn := readNumber?_of_written h hr
    obtain ⟨c, u, rfl, hc⟩ := h.starts
    rw [List.cons_append] at hn ⊢
    rw [readValue?_of_number hc, hn]
    rfl
  | string h =>
    intro fuel r hf hr
    obtain ⟨u, hu, hs⟩ := readString?_of_written h r
    rw [hu, readValue?, hs]
    rfl
  | emptyArray hw =>
    intro fuel r hf hr
    rw [List.cons_append, List.append_assoc, readValue?, skipSpace_append hw]
    rfl
  | @array items hne hs h ih =>
    intro fuel r hf hr
    have reads (i : Item) (hi : i ∈ items) : i.Reads := ⟨hs i hi, (h i hi).starts, ih i hi⟩
    obtain ⟨c, s, hc, hb⟩ := skipSpace_items hne reads (']' :: r)
    simp only [List.length_cons, List.length_append, List.length_nil] at hf
    rw [List.cons_append, List.append_assoc, List.singleton_append, readValue?_of_array hc hb,
      readItems?_skipSpace, readItems?_append hne reads (by omega)]
    rfl
  | emptyObject hw =>
    intro fuel r hf hr
    rw [List.cons_append, List.append_assoc, readValue?, skipSpace_append hw]
    rfl
  | @object members hne hs h ih =>
    intro fuel r hf hr
    have reads (m : Member) (hm : m ∈ members) : m.Reads := ⟨hs m hm, (h m hm).starts, ih m hm⟩
    simp only [List.length_cons, List.length_append, List.length_nil] at hf
    rw [List.cons_append, List.append_assoc, List.singleton_append]
    apply readValue?_members hne reads (by omega)

/-- A text that writes a value, with white space around it, is read as that value. -/
theorem read?_of_written {v : Value} {t w w' : List Char} (h : Written v t) (hw : IsSpace w)
    (hw' : IsSpace w') :
  read? (w ++ (t ++ w')) = some v
  := by
  have hd : Delimited w' := by
    rw [← List.append_nil w']
    apply delimited_append hw'
    exact fun _ hc => nomatch hc
  have hs : skipSpace (w ++ (t ++ w')) = t ++ w' := by
    obtain ⟨c, u, ht, hc, -⟩ := h.starts
    rw [skipSpace_append hw, ht, List.cons_append, skipSpace_cons hc]
  have hr : readValue? (2 * (w ++ (t ++ w')).length + 2) (t ++ w') = some (v, w') := by
    apply readsAs_of_written h
    · simp only [List.length_append]
      omega
    · apply hd
  have hn : skipSpace w' = [] := by
    rw [← List.append_nil w', skipSpace_append hw']
    rfl
  rw [read?, hs, hr]
  simp [hn]

end QuoteFeed.Json
