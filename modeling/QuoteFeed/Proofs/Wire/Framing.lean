import QuoteFeed.Proofs.Json.Acceptance
import QuoteFeed.Proofs.Text.Blank
import QuoteFeed.Wire.Inbound

/-!
# Where a frame ends

A frame that is decoded is the text of one object with blanks around it
(`Inbound.exists_written_of_decode`), and no text of an object is the start of another.  So a frame
that is cut short is refused, and so is one with anything after it but blanks, another frame
included (`Inbound.decode_framing`).
-/

namespace QuoteFeed

theorem Json.isBlank_of_isSpace {c : Char} (h : Json.isSpace c = true) :
  Text.isBlank c = true
  := by
  simp only [isSpace, Bool.or_eq_true, beq_iff_eq] at h
  obtain ((rfl | rfl) | rfl) | rfl := h
  · rfl
  · rfl
  · rfl
  · rfl

namespace Inbound

variable {text : String} {e : Inbound} {before : List Char}

/-- What starts with a brace, after blanks, is refused as no JSON text unless it is the text of an
object with blanks after it. -/
theorem exists_written_of_ne_json (hb : ∀ c ∈ before, Text.isBlank c = true) {s : List Char}
    (h : decode (String.ofList (before ++ '{' :: s)) ≠ .error .json) :
  ∃ ms, Json.Written (.object ms) (Text.trimEndChars ('{' :: s))
  := by
  rw [decode, String.toList_ofList, Text.trimChars_append_cons hb rfl] at h
  have hlast {c : Char} := Text.isBlank_of_mem_getLast? (s := '{' :: s) (c := c)
  obtain ⟨u, hu⟩ := Text.exists_trimEndChars_cons (c := '{') rfl s
  rw [hu] at h hlast ⊢
  cases hr : Json.read? ('{' :: u) with
  | none =>
    rw [decodeChars, if_neg (by simp), hr] at h
    exact absurd rfl h
  | some v =>
    obtain ⟨ms, t, w, rfl, ht, hw, hsw⟩ := Json.exists_object_of_read? hr
    use ms
    obtain rfl | ⟨w, c, rfl⟩ := List.eq_nil_or_concat w
    · rwa [ht, List.append_nil]
    · -- the white space after the object would be blanks at the end
      have hc := hlast (c := c) (by rw [ht]; simp)
      rw [Json.isBlank_of_isSpace (hsw c (by simp))] at hc
      cases hc

/-- What is decoded starts with a brace, after blanks. -/
theorem exists_brace_of_decode (h : decode text = .ok e) :
  ∃ before s, (∀ c ∈ before, Text.isBlank c = true) ∧ text.toList = before ++ '{' :: s
  := by
  obtain ⟨before, after, hb, -, ht⟩ := Text.exists_trimChars text.toList
  rw [decode, decodeChars] at h
  split at h
  · cases h
  · rename_i hs
    obtain ⟨s, hs⟩ := List.head?_eq_some_iff.1 (not_not.1 hs)
    use before, s ++ after, hb
    rw [ht, hs, List.cons_append]

/-- What is decoded is the text of an object with blanks around it. -/
theorem exists_written_of_decode (h : decode text = .ok e) :
  ∃ ms, Json.Written (.object ms) (Text.trimChars text.toList)
  := by
  obtain ⟨before, s, hb, ht⟩ := exists_brace_of_decode h
  rw [ht, Text.trimChars_append_cons hb rfl]
  apply exists_written_of_ne_json hb
  rw [← ht, String.ofList_toList, h]
  exact nofun

variable {ms : List (Option String × Json.Value)} {t : List Char}

/-- What starts with the text of an object is refused if the object is cut short. -/
theorem decode_of_isPrefix (h : Json.Written (.object ms) t) {p : List Char} (hp : p <+: t)
    (hne : p ≠ t) :
  decode (String.ofList p) = .error (if p = [] then .notObject "" else .json)
  := by
  cases p with
  | nil => rfl
  | cons c p =>
    obtain ⟨s, rfl⟩ := h.braces rfl
    obtain ⟨rfl, -⟩ : c = '{' ∧ p <+: s ++ ['}'] := by simpa using hp
    rw [if_neg (by simp)]
    by_contra hd
    have hb : ∀ c ∈ ([] : List Char), Text.isBlank c = true := nofun
    obtain ⟨ms', hw⟩ := exists_written_of_ne_json hb hd
    have hs := Text.trimEndChars_isPrefix ('{' :: p)
    rw [hw.eq_of_isPrefix h (hs.trans hp)] at hs
    exact hne (hp.eq_of_length_le hs.length_le)

/-- The text of an object is refused if more than blanks come after it. -/
theorem decode_append (h : Json.Written (.object ms) t)
    (hb : ∀ c ∈ before, Text.isBlank c = true) {rest : List Char}
    (hr : ∃ c ∈ rest, Text.isBlank c = false) :
  decode (String.ofList (before ++ (t ++ rest))) = .error .json
  := by
  have hne : Text.trimEndChars rest ≠ [] := by
    intro hn
    obtain ⟨c, hc, hf⟩ := hr
    rw [Text.trimEndChars_eq_nil_iff.1 hn c hc] at hf
    cases hf
  by_contra hd
  obtain ⟨ms', hw⟩ : ∃ ms', Json.Written (.object ms') (Text.trimEndChars (t ++ rest)) := by
    obtain ⟨s, rfl⟩ := h.braces rfl
    apply exists_written_of_ne_json hb hd
  rw [Text.trimEndChars_append t hne] at hw
  have ht := h.eq_of_isPrefix hw (List.prefix_append _ _)
  exact hne (List.self_eq_append_right.1 ht)

/-- An accepted frame tells by itself where it ends: without the blanks around it, every proper
prefix of it is refused, and so is the frame with anything after it but blanks.  Two frames one
after the other are no frame. -/
theorem decode_framing (h : decode text = .ok e) :
  (∀ p : String, p.toList <+: (Text.trim text).toList → p ≠ Text.trim text →
    decode p = .error (if p = "" then .notObject "" else .json)) ∧
  (∀ rest, Text.isBlankText rest = false → decode (Text.trim text ++ rest) = .error .json) ∧
  ∀ other e', decode other = .ok e' → decode (text ++ other) = .error .json
  := by
  obtain ⟨ms, hw⟩ := exists_written_of_decode h
  refine ⟨fun p hp hne => ?_, fun rest hr => ?_, fun other e' ho => ?_⟩
  · have hd := decode_of_isPrefix hw (p := p.toList) (by simpa [Text.trim] using hp) ?_
    · simpa using hd
    · intro hp
      apply hne
      rw [Text.trim, ← hp, String.ofList_toList]
  · have hr : ∃ c ∈ rest.toList, Text.isBlank c = false := by simpa [Text.isBlankText] using hr
    have hb : ∀ c ∈ ([] : List Char), Text.isBlank c = true := nofun
    have hd := decode_append hw hb hr
    rw [List.nil_append, String.ofList_append, String.ofList_toList] at hd
    apply hd
  · obtain ⟨before, after, hb, -, ht⟩ := Text.exists_trimChars text.toList
    obtain ⟨before', s, -, hs⟩ := exists_brace_of_decode ho
    have hr : ∃ c ∈ after ++ other.toList, Text.isBlank c = false := ⟨'{', by simp [hs], rfl⟩
    have hd := decode_append hw hb hr
    rw [← List.append_assoc _ after, ← List.append_assoc, ← ht, String.ofList_append,
      String.ofList_toList, String.ofList_toList] at hd
    apply hd

/-- A frame with braces in a string and in an unknown member ends at its last brace. -/
theorem decode_framing_of_nested_braces :
  let text := " \x7b\"type\":\"pong\",\"note\":[\"\\\"\x7d\",\x7b\x7d]\x7d\n"
  decode text = .ok (.pong none) ∧
    (∀ p : String, p.toList <+: (Text.trim text).toList → p ≠ Text.trim text →
      decode p = .error (if p = "" then .notObject "" else .json)) ∧
    decode (text ++ text) = .error .json
  := by
  intro text
  have h : decode text = .ok (.pong none) := by decide +kernel
  use h, (decode_framing h).1
  apply (decode_framing h).2.2 text _ h

end Inbound

end QuoteFeed
