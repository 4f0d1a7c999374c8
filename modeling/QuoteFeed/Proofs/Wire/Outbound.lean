import QuoteFeed.Proofs.Wire.Inbound
import QuoteFeed.Wire.Outbound

/-!
# Messages read back

The frame of a message is one JSON object: its type comes first, then the market and the channel,
and the depth where there is one (`Outbound.Spells`).  The reader of frames from the exchange finds
these members in the frame, in this order and with their values, so that two messages never have the
same frame.  As an event the frame is refused for its type (`Outbound.read_encode`).
-/

namespace QuoteFeed

namespace Json

/-- A record has its members in their order. -/
theorem record_injective :
  Function.Injective Value.record
  := by
  intro ms ms' h
  have hf : Function.Injective fun m : String × Value => (some m.1, m.2) := by
    rintro ⟨k, v⟩ ⟨k', v'⟩ e
    obtain ⟨hk, rfl⟩ := Prod.mk.inj e
    obtain rfl := Option.some.inj hk
    rfl
  apply List.map_injective_iff.2 hf (Value.object.inj h)

theorem text_injective :
  Function.Injective Value.text
  := fun _ _ h => Option.some.inj (Value.string.inj h)

/-- A count is the value of its digits. -/
theorem nat_injective :
  Function.Injective Value.nat
  := by
  intro n n' h
  have hd : Numeral.ofNat n = Numeral.ofNat n' :=
    congrArg Number.whole (Value.number.inj h)
  calc
    n = Nat.ofDigitChars 10 (Numeral.ofNat n) 0 := Nat.ofDigitChars_ten_toDigits.symm
    _ = Nat.ofDigitChars 10 (Numeral.ofNat n') 0 := by rw [hd]
    _ = n' := Nat.ofDigitChars_ten_toDigits

theorem isInteger_nat (n : Nat) :
  IsInteger n (.nat n)
  := by
  refine ⟨.ofDigits (Numeral.ofNat n), rfl, rfl, ?_, ?_⟩
  · simp [Number.ofDigits]
  · apply Nat.ofDigitChars_ten_toDigits

end Json

theorem Channel.name_injective :
  Function.Injective Channel.name
  := by
  intro c c' h
  cases c with
  | ticker =>
    cases c' with
    | ticker => rfl
    | orderBook => revert h; decide
  | orderBook =>
    cases c' with
    | ticker => revert h; decide
    | orderBook => rfl

namespace Outbound

/-- The members that spell a message, in their order. -/
inductive Spells : Outbound → List (String × Json.Value) → Prop where
  | subscribe (id : MarketId) (channel : Channel) :
    Spells (.subscribe id channel none)
      [("type", .text "subscribe"), ("id", .text id.name), ("name", .text channel.name)]
  | limited (id : MarketId) (channel : Channel) {n : Nat} {v : Json.Value}
      (hv : Json.IsInteger n v) :
    Spells (.subscribe id channel (some n))
      [("type", .text "subscribe"), ("id", .text id.name), ("name", .text channel.name),
        ("limit", v)]
  | unsubscribe (id : MarketId) (channel : Channel) :
    Spells (.unsubscribe id channel)
      [("type", .text "unsubscribe"), ("id", .text id.name), ("name", .text channel.name)]
  | ping : Spells .ping [("type", .text "ping")]

theorem spells_members (m : Outbound) :
  m.Spells (("type", .text m.kind) :: m.arguments)
  := by
  cases m with
  | subscribe id channel limit =>
    cases limit with
    | none => exact .subscribe id channel
    | some n => exact .limited id channel (Json.isInteger_nat n)
  | unsubscribe id channel => exact .unsubscribe id channel
  | ping => exact .ping

/-- Two messages never have the same members. -/
theorem toJson_injective :
  Function.Injective toJson
  := by
  have named {id id' : MarketId} {channel channel' : Channel}
      (hi : Json.Value.text id.name = .text id'.name)
      (hc : Json.Value.text channel.name = .text channel'.name) :
      id = id' ∧ channel = channel' := by
    constructor
    · obtain ⟨name⟩ := id
      obtain ⟨name'⟩ := id'
      exact congrArg MarketId.mk (Json.text_injective hi)
    · exact Channel.name_injective (Json.text_injective hc)
  intro m m' h
  obtain ⟨hk, ha⟩ := List.cons.inj (Json.record_injective h)
  replace hk : m.kind = m'.kind := Json.text_injective (Prod.mk.inj hk).2
  cases m with
  | subscribe id channel limit =>
    cases m' with
    | subscribe id' channel' limit' =>
      simp only [arguments, List.cons_append, List.nil_append, List.cons.injEq, Prod.mk.injEq,
        true_and] at ha
      obtain ⟨hi, hc, hl⟩ := ha
      obtain ⟨rfl, rfl⟩ := named hi hc
      have hn : Function.Injective fun n => ("limit", Json.Value.nat n) :=
        fun n n' e => Json.nat_injective (Prod.mk.inj e).2
      have ho := congrArg List.head? hl
      rw [Option.head?_toList, Option.head?_toList] at ho
      rw [Option.map_injective hn ho]
    | unsubscribe id' channel' => simp [kind] at hk
    | ping => simp [kind] at hk
  | unsubscribe id channel =>
    cases m' with
    | subscribe id' channel' limit' => simp [kind] at hk
    | unsubscribe id' channel' =>
      simp only [arguments, List.cons.injEq, Prod.mk.injEq, true_and, and_true] at ha
      obtain ⟨rfl, rfl⟩ := named ha.1 ha.2
      rfl
    | ping => simp [kind] at hk
  | ping =>
    cases m' with
    | subscribe id' channel' limit' => simp [kind] at hk
    | unsubscribe id' channel' => simp [kind] at hk
    | ping => rfl

/-- A message can be written. -/
theorem isWritable_toJson (m : Outbound) :
  m.toJson.IsWritable
  := by
  have text (t : String) : (Json.Value.text t).IsWritable := .text t
  have named (id : MarketId) (channel : Channel) :
      ∀ x ∈ [("id", Json.Value.text id.name), ("name", .text channel.name)], x.2.IsWritable := by
    simp only [List.forall_mem_cons]
    exact ⟨text _, text _, by simp⟩
  apply Json.Value.IsWritable.record
  rw [List.forall_mem_cons]
  use text m.kind
  cases m with
  | subscribe id channel limit =>
    rw [arguments, List.forall_mem_append]
    use named id channel
    cases limit with
    | none => simp
    | some n => simpa using Json.Value.isWritable_nat n
  | unsubscribe id channel => apply named
  | ping => simp [arguments]

/-- The reader finds the message in its frame. -/
theorem read?_encode (m : Outbound) :
  Json.read? m.encode.toList = some m.toJson
  := by
  rw [encode, Json.Value.toText, String.toList_ofList]
  apply Json.read?_render m.isWritable_toJson

/-- The text of a message is between braces, and no blank is around it. -/
theorem trimChars_encode (m : Outbound) :
  Text.trimChars m.encode.toList = m.encode.toList ∧ m.encode.toList.head? = some '{'
  := by
  obtain ⟨t, ht⟩ := (Json.written_render m.isWritable_toJson).braces rfl
  have he : m.encode.toList = '{' :: (t ++ ['}']) := by
    rw [encode, Json.Value.toText, String.toList_ofList, ht]
  rw [he]
  have hnil : ∀ c ∈ ([] : List Char), Text.isBlank c = true := by simp
  have h := Text.trimChars_append (s := t) (c := '{') (d := '}') hnil hnil rfl rfl
  exact ⟨by simpa using h, rfl⟩

/-- The reader of events finds the type of a message. -/
theorem kind?_toJson (m : Outbound) :
  Inbound.kind? m.toJson = some (some m.kind)
  := by
  have hk : ∀ x ∈ m.arguments, x.1 ∉ ["type"] := by
    cases m with
    | subscribe id channel limit => cases limit <;> simp [arguments]
    | unsubscribe id channel => simp [arguments]
    | ping => simp [arguments]
  have hr : Json.IsRecord ["type"] [("type", .text m.kind)] m.toJson :=
    ⟨_, m.arguments, rfl, .refl _, hk⟩
  have hf : m.toJson.fields? ["type"] = some [some (.text m.kind)] := by
    rw [hr.fields? fun _ h => h]
    rfl
  rw [Inbound.kind?, hf]
  rfl

/-- No event has the type of a message. -/
theorem ofKind_kind (m : Outbound) (v : Json.Value) :
  Inbound.ofKind m.kind v = .error (.unknownType m.kind)
  := by
  have h : m.kind ≠ "ticker" ∧ m.kind ≠ "orderbook" ∧ m.kind ≠ "pong" := by
    cases m with
    | subscribe id channel limit => simp [kind]
    | unsubscribe id channel => simp [kind]
    | ping => simp [kind]
  rw [Inbound.ofKind, if_neg h.1, if_neg h.2.1, if_neg h.2.2]

/-- The frame of every message is read as one object with the members that spell the message, in
their order; two messages never have the same frame; and as an event the frame is refused, for the
type of the message is none that is known. -/
theorem read_encode :
  (∀ m : Outbound, ∃ members, m.Spells members ∧
      Json.read? m.encode.toList = some (.record members)) ∧
    Function.Injective encode ∧
    ∀ m : Outbound, Inbound.decode m.encode = .error (.unknownType m.kind)
  := by
  refine ⟨?_, ?_, ?_⟩
  · intro m
    use ("type", .text m.kind) :: m.arguments, m.spells_members
    apply read?_encode
  · intro m m' h
    apply toJson_injective
    apply Option.some.inj
    rw [← read?_encode, ← read?_encode, h]
  · intro m
    obtain ⟨ht, hb⟩ := m.trimChars_encode
    rw [Inbound.decode, ht, Inbound.decodeChars, hb, if_neg (by simp), read?_encode]
    dsimp only
    rw [kind?_toJson]
    apply ofKind_kind

end Outbound

end QuoteFeed
