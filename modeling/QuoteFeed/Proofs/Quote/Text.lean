import QuoteFeed.Proofs.Time.Timestamp
import QuoteFeed.Proofs.Wire.Inbound
import QuoteFeed.Quote.Basic

/-!
# The text of quotes and markets

A quote and a market are read back from the JSON text that is written for them, with every place of
their decimals and every digit of their times, and the value that was read is written as the same
text (`Quote.readsBack`).  What the text cannot say is left out: the sign of a negative zero
and a leap second (`Quote.IsRegular`, `Market.IsRegular`).
-/

namespace QuoteFeed

open Time (Timestamp)

namespace Json

variable {α : Type} {read : Value → Option α} {write : α → Value} {a : α}

/-- What is read from the text that is written is the value, and it is written as the same text. -/
structure ReadsBack (read : Value → Option α) (write : α → Value) (a : α) : Prop where
  value : (read? (write a).toText.toList).bind read = some a
  text : ((read? (write a).toText.toList).bind read).map (fun b => (write b).toText) =
    some (write a).toText

theorem readsBack_of_read (hw : (write a).IsWritable) (hr : read (write a) = some a) :
  ReadsBack read write a
  := by
  have h : (read? (write a).toText.toList).bind read = some a := by
    rw [Value.toText, String.toList_ofList, read?_render hw, Option.bind_some, hr]
  use h
  rw [h, Option.map_some]

/-- A count of 64 bits is read. -/
theorem unsigned?_nat {n : Nat} (h : n ≤ Numeral.max64) :
  (Value.nat n).unsigned? = some n
  := by
  have hv : Numeral.value (Numeral.ofNat n) = n := Nat.ofDigitChars_ten_toDigits
  let digits : Number := .ofDigits (Numeral.ofNat n)
  have hw : digits.isWhole ∧ !digits.negative := ⟨rfl, rfl⟩
  rw [Value.nat, Value.unsigned?, Number.unsigned?, if_pos hw, Number.ofDigits, hv,
    Option.filter_some, if_pos (decide_eq_true h)]

end Json

theorem Time.Timestamp.ofJson?_toJson {t : Timestamp} (h : t.nanos < 1000000000) :
  ofJson? t.toJson = some t
  := by
  rw [ofJson?, toJson, Json.Value.text, Json.Value.text?, Option.bind_eq_bind, Option.bind_some,
    Timestamp.text, String.toList_ofList, parse?_render h]

/-! ### Markets -/

namespace Market

/-- The price scale is of 64 bits, and the least movement is no negative zero. -/
structure IsRegular (m : Market) : Prop where
  priceScale_le : m.priceScale ≤ Numeral.max64
  ne_zero : m.minMovement.negative = true → m.minMovement.mantissa ≠ 0

theorem isWritable_toJson (m : Market) :
  m.toJson.IsWritable
  := by
  apply Json.Value.IsWritable.record
  simp only [members, List.forall_mem_cons]
  have text (t : String) : (Json.Value.text t).IsWritable := .text t
  exact ⟨text _, text _, text _, Json.Value.isWritable_nat _, text _, .bool _, by simp⟩

theorem ofJson?_toJson {m : Market} (h : m.IsRegular) :
  ofJson? m.toJson = some m
  := by
  have hf : m.toJson.fields? fieldNames = some [some (.text m.id.name), some (.text m.base),
      some (.text m.quote), some (.nat m.priceScale), some m.minMovement.toJson,
      some (.bool m.tradable)] := rfl
  have hscale := Json.unsigned?_nat h.priceScale_le
  have hmovement := Inbound.ofJson?_toJson h.ne_zero
  rw [ofJson?, hf]
  simp only [Option.bind_eq_bind, Option.bind_some, Json.required?, hscale, hmovement]
  rfl

end Market

/-! ### Quotes -/

namespace Quote

/-- No price is a negative zero, and no time is a leap second. -/
structure IsRegular (q : Quote) : Prop where
  ne_zero : ∀ d ∈ [q.bid, q.ask], d.negative = true → d.mantissa ≠ 0
  nanos_lt : ∀ t ∈ [q.sourceTime, q.ingestedAt], t.nanos < 1000000000

theorem isWritable_toJson (q : Quote) :
  q.toJson.IsWritable
  := by
  apply Json.Value.IsWritable.record
  simp only [List.forall_mem_cons]
  have text (t : String) : (Json.Value.text t).IsWritable := .text t
  exact ⟨text _, text _, text _, text _, text _, by simp⟩

theorem ofJson?_toJson {q : Quote} (h : q.IsRegular) :
  ofJson? q.toJson = some q
  := by
  have hf : q.toJson.fields? fieldNames = some [some (.text q.market.name), some q.bid.toJson,
      some q.ask.toJson, some q.sourceTime.toJson, some q.ingestedAt.toJson] := rfl
  have hd := h.ne_zero
  have ht := h.nanos_lt
  simp only [List.forall_mem_cons] at hd ht
  have hbid := Inbound.ofJson?_toJson hd.1
  have hask := Inbound.ofJson?_toJson hd.2.1
  have hsource := Timestamp.ofJson?_toJson ht.1
  have hingested := Timestamp.ofJson?_toJson ht.2.1
  rw [ofJson?, hf]
  simp only [Option.bind_eq_bind, Option.bind_some, Json.required?, hbid, hask, hsource, hingested]
  rfl

/-- Every quote is read back from its text, and so is every market: every quote whose prices are no
negative zeros and whose times are no leap seconds, and every market whose price scale is of 64 bits
and whose least movement is no negative zero. -/
theorem readsBack :
  (∀ q : Quote, q.IsRegular → Json.ReadsBack ofJson? toJson q) ∧
    ∀ m : Market, m.IsRegular → Json.ReadsBack Market.ofJson? Market.toJson m
  := by
  constructor
  · intro q h
    apply Json.readsBack_of_read q.isWritable_toJson (ofJson?_toJson h)
  · intro m h
    apply Json.readsBack_of_read m.isWritable_toJson (Market.ofJson?_toJson h)

/-- A quote at both ends of time, with the greatest and a least decimal, is read back, and so is a
market of the greatest price scale. -/
theorem readsBack_extremes :
  let id : MarketId := ⟨"\"\\\u0001€𝄞"⟩
  let greatest : Decimal :=
    ⟨false, 79228162514264337593543950335, 28, Nat.le_of_ble_eq_true rfl, Nat.le_of_ble_eq_true rfl⟩
  let least : Decimal := ⟨true, 100, 28, Nat.le_of_ble_eq_true rfl, Nat.le_of_ble_eq_true rfl⟩
  let first : Timestamp := ⟨Time.minSeconds, 1, by decide, by decide, by decide⟩
  let last : Timestamp := ⟨Time.maxSeconds, 999999999, by decide, by decide, by decide⟩
  let quote : Quote := ⟨id, least, greatest, first, last⟩
  let market : Market := ⟨id, "", "𝄞\n", 18446744073709551615, least, true⟩
  Json.ReadsBack ofJson? toJson quote ∧ Json.ReadsBack Market.ofJson? Market.toJson market
  := by
  constructor
  · apply readsBack.1
    constructor
    · decide
    · decide
  · apply readsBack.2
    constructor
    · decide
    · decide

end Quote

end QuoteFeed
